import ElementLint.Report.Insertion
import ElementLint.Report.Summary

/-!
# Items from elsewhere

Items that the linter did not make itself are JSON values of any form. Here they are put in order,
counted and written out as far as they can be; `ItemError` says what stands in the way.
-/

namespace ElementLint

inductive ItemError where
  | notObject (value : Json)
  /-- A severity or a rule is a list or an object and cannot be counted. -/
  | uncountable (value : Json)
  /-- The sources of two items stand in no order. -/
  | unordered (u : Json.Unordered)
  | missing (field : MissingField)
deriving DecidableEq

def ItemError.message : ItemError → Text
  | .notObject value => "'" ++ value.typeName ++ "' object has no attribute 'get'"
  | .uncountable value => "unhashable type: '" ++ value.typeName ++ "'"
  | .unordered u => u.message "<"
  | .missing field => field.name.quoted

namespace Given

def item (j : Json) : Except ItemError Item :=
  match j with
  | .object _ => .ok {
      severity := j.get? "severity"
      source := j.get? "source"
      rule := j.get? "rule"
      messageId := j.get? "message_id"
      line := j.get? "line"
      column := j.get? "column"
      message := j.get? "message" }
  | _ => .error (.notObject j)

def countable (value : Option Json) : Except ItemError Unit :=
  match value.filter Json.isContainer with
  | some value => .error (.uncountable value)
  | none => .ok ()

/-- What an item is put in order by: its line, its column, the rank of its severity, its source. -/
def key (j : Json) : Except ItemError (List Json) := do
  let i ← item j
  countable i.severity
  return [.int i.key.line, .int i.key.column, .int i.key.rank, i.source.getD (.text [])]

def order (items : List Json) : Except ItemError (List Nat) := do
  let keys ← items.mapM key
  let sorted ← (Insertion.sort (fun a b => Json.lessLists a.1 b.1) keys.zipIdx).mapError .unordered
  return sorted.map (·.2)

def count (s : Summary) (j : Json) : Except ItemError Summary := do
  let i ← item j
  countable i.severity
  countable i.ruleOf?
  return s.count i

def summary (items : List Json) : Except ItemError Summary := items.foldlM count {}

def format (file : Text) (j : Json) : Except ItemError Text := do
  (← item j).format file |>.mapError .missing

end Given

end ElementLint
