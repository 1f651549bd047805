import ElementLint.Json.Basic
import ElementLint.Node.Basic

/-!
# Rules

A rule has texts that describe it, a schema for its options, and a check that says what it reports at
a node. A report names a message of the rule and a position.
-/

namespace ElementLint

/-- What a rule says about a place. -/
structure Report where
  messageId : Text
  position : Position
deriving DecidableEq

inductive RuleFailure where
  | noCheck
  /-- The rule asks for nodes of a kind that there is not. -/
  | unknownKind (kind : Json)
  /-- The rule reports a message that it does not have. -/
  | unknownMessage (id : Json)
  /-- The rule reports a message under a list or an object, which can be no id. -/
  | unusableMessage (id : Json)
  /-- The rule's own test of a name fails, with these words. -/
  | nameTest (words : Text)
deriving DecidableEq

def RuleFailure.message : RuleFailure → Text
  | .noCheck => "create() must be implemented"
  | .unknownKind kind => kind.quoted ++ " is not a valid NodeKind"
  | .unknownMessage id => id.quoted
  | .unusableMessage id => "unhashable type: '" ++ id.typeName ++ "'"
  | .nameTest words => words

abbrev Check := Node → Except RuleFailure (List Report)

structure Rule where
  /-- The id, which is a text for every rule that can be asked for by name. -/
  id : Json := .null
  description : Text := []
  url : Option Text := none
  messages : Fields Json := []
  /-- What the options have to look like, one entry for each. -/
  schema : Json := .list []
  check : List Json → Except RuleFailure Check := fun _ => .error .noCheck

namespace Rule

def schemaEntries? (r : Rule) : Option (List Json) :=
  if r.schema.truthy then r.schema.elements? else some []

def describe (r : Rule) : Json :=
  .object [
    ("docs", .object [
      ("description", .text r.description),
      ("url", match r.url with | some url => .text url | none => .null)]),
    ("messages", .object r.messages),
    ("schema", .list (r.schemaEntries?.getD []))]

def kindOf (kind : Json) : Except RuleFailure NodeKind :=
  match kind with
  | .text t =>
    match NodeKind.ofName? t with
    | some k => .ok k
    | none => .error (.unknownKind kind)
  | _ => .error (.unknownKind kind)

def reportOf (id : Json) (pos : Position) : Except RuleFailure Report :=
  match id with
  | .text t => .ok ⟨t, pos⟩
  | id => .error (if id.isContainer then .unusableMessage id else .unknownMessage id)

/-- A rule that reports a message at every node of the kinds that it is given. For a kind that is
listed twice the later message counts. -/
def probe (id : Json) (messages : Fields Json) (schema : Json) (on : List (Json × Json)) : Rule where
  id
  messages
  schema
  check := fun _ => do
    let on ← on.mapM fun (kind, message) => (kindOf kind).map fun k => (k, message)
    return fun n =>
      match on.reverse.find? fun (kind, _) => kind == n.kind with
      | some (_, message) => (reportOf message n.pos).map fun r => [r]
      | none => .ok []

end Rule

end ElementLint
