import ElementLint.Engine.Basic
import ElementLint.Tree.Problem

/-!
# Items of a report

An item is one line of a report. Items that the linter makes itself have all their fields; items from
elsewhere may lack fields or hold other values there, and everything here says what it makes of them.
`Item.sort` is the order of a report.
-/

namespace ElementLint

/-- Why an item cannot be written out: it lacks a field. -/
structure MissingField where
  name : Text
deriving DecidableEq

/-- One line of a report; a field is `none` if the item does not have it. -/
structure Item where
  severity : Option Json := none
  source : Option Json := none
  rule : Option Json := none
  messageId : Option Json := none
  line : Option Json := none
  column : Option Json := none
  message : Option Json := none

namespace Item

def textOrNull : Option Text → Json
  | some t => .text t
  | none => .null

/-- The item of a place at which the source text breaks the grammar. -/
def ofProblem (p : Problem) : Item where
  severity := some (.text "error")
  source := some (.text "parser")
  rule := some .null
  messageId := some .null
  line := some (.int p.position.line)
  column := some (.int p.position.column)
  message := some (.text p.message)

def severityOf : Severity → Text
  | .warn => "warning"
  | _ => "error"

def ofDiagnostic (d : Diagnostic) : Item where
  severity := some (.text (severityOf d.severity))
  source := some (.text "rule")
  rule := some d.rule
  messageId := some (.text d.messageId)
  line := some (.int d.position.line)
  column := some (.int d.position.column)
  message := some d.message

/-- The item that says that the rules did not run, on the line of the first problem if it is a whole
number. -/
def limited (line : Json) : Item where
  severity := some (.text "warning")
  source := some (.text "runtime")
  rule := some .null
  messageId := some .null
  line := some (if line.int?.isSome then line else .null)
  column := some .null
  message := some (.text (
    "Rule-based checks were skipped because syntax errors were found. " ++
    "Fix syntax errors first, then run the linter again."))

def failure (message : Text) : Item where
  severity := some (.text "error")
  source := some (.text "runtime")
  rule := some .null
  messageId := some .null
  line := some .null
  column := some .null
  message := some (.text message)

def toJson (i : Item) : Json :=
  .object <| [("severity", i.severity), ("source", i.source), ("rule", i.rule),
    ("message_id", i.messageId), ("line", i.line), ("column", i.column),
    ("message", i.message)].filterMap fun (name, value) =>
      value.map fun value => (Text.ofString name, value)

def int? (field : Option Json) : Option Int := field.bind Json.int?

/-- The rank of an item among those at one place: errors first, then warnings, then all else. An item
without severity is an error. -/
def rank (i : Item) : Nat :=
  match i.severity with
  | none => 0
  | some (.text t) => if t = "error" then 0 else if t = "warning" then 1 else 2
  | some _ => 2

/-- What items are sorted by. -/
structure Key where
  line : Int
  column : Int
  rank : Nat
  source : Text
deriving DecidableEq

def Key.le (a b : Key) : Bool :=
  a.line < b.line || (a.line == b.line &&
    (a.column < b.column || (a.column == b.column &&
      (a.rank < b.rank || (a.rank == b.rank && a.source.le b.source)))))

/-- Items without a line come last, and items without a column first on their line. -/
def key (i : Item) : Key where
  line := (int? i.line).getD 1000000000
  column := (int? i.column).getD 0
  rank := i.rank
  source := match i.source with | some (.text t) => t | _ => []

/-- Items in the order of a report; items with the same key stay in their order. -/
def sort (items : List Item) : List Item :=
  items.mergeSort fun a b => a.key.le b.key

def ruleOf? (i : Item) : Option Json := i.rule.filter Json.truthy

/-- A field that has to be there. -/
def field (name : Text) (value : Option Json) : Except MissingField Json :=
  match value with
  | some value => .ok value
  | none => .error ⟨name⟩

/-- The place of an item: the file, then the line and the column as far as they are numbers. -/
def location (file : Text) (i : Item) : Text :=
  match i.line, int? i.line with
  | some line, some _ =>
    file ++ ":" ++ line.shown ++
      match i.column, int? i.column with
      | some column, some _ => ":" ++ column.shown
      | _, _ => []
  | _, _ => file

def format (file : Text) (i : Item) : Except MissingField Text := do
  let suffix : Text := match i.ruleOf? with | some rule => " [" ++ rule.shown ++ "]" | none => []
  let severity ← field "severity" i.severity
  let message ← field "message" i.message
  return location file i ++ ": " ++ severity.shown ++ " " ++ message.shown ++ suffix

end Item

end ElementLint
