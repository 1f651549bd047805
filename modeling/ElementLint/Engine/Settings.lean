import ElementLint.Engine.Basic
import ElementLint.Rule.GuardSuperCall
import ElementLint.Rule.InvalidElementName

/-!
# Settings

Settings name the rules to run and give options and severities to some of them. `Settings.build` looks
the names up in the registry and gives the engine: with no selection all rules run, in the order of the
registry whatever the order of the selection, and a rule without a severity is an error.
-/

namespace ElementLint

/-- The rules that can be asked for by name, in the order in which they run. -/
def registry : List (Text × Rule) :=
  [("no-invalid-element-name", InvalidElementName.rule), ("guard-super-call", GuardSuperCall.rule)]

def EngineError.message : EngineError → Text
  | .unknownRules names =>
    "Unknown rule(s): " ++ Text.joinWith ", " names ++
      ". Valid rules: " ++ Text.joinWith ", " (Text.sortedSet (registry.map (·.1))) ++ "."
  | .containerName value => "unhashable type: '" ++ value.typeName ++ "'"
  | .notName value =>
    "sequence item 0: expected str instance, " ++ value.typeName ++ " found"
  | .unordered u => u.message "<"
  | .noNames value => "'" ++ value.typeName ++ "' object is not iterable"
  | .noValues value => "'" ++ value.typeName ++ "' object has no attribute 'get'"
  | .unknownSeverity rule severity =>
    "Rule '" ++ rule ++ "' has unknown severity '" ++ severity.shown ++ "'. Valid severities: " ++
      Severity.listed ++ "."
  | .options rule e => e.message rule

/-- Which rules to run, and how. An empty value of any type stands for nothing at all. -/
structure Settings where
  /-- The names of the rules to run, or nothing for all. -/
  enabled : Json := .null
  options : Json := .null
  severities : Json := .null

namespace Settings

def named (value : Json) : Except EngineError (List Json) :=
  if value.truthy then
    match value.elements? with
    | none => .error (.noNames value)
    | some names =>
      match names.find? Json.isContainer with
      | some name => .error (.containerName name)
      | none => .ok names
  else .ok []

def names (value : Json) (rule : Text) : Bool :=
  match value with
  | .text name => name == rule
  | _ => false

def isKnown (value : Json) : Bool := registry.any fun r => names value r.1

def text? : Json → Option Text
  | .text t => some t
  | _ => none

/-- The error for values that name no rule. They are listed in their order, and the least of them that
is no text spoils the list. -/
def unknown (first : Json) (rest : List Json) : EngineError :=
  match (first :: rest).mapM text? with
  | some texts => .unknownRules (Text.sortedSet texts)
  | none =>
    match (Json.distinct (first :: rest)).tail.foldlM Json.lesser first with
    | .ok least => .notName least
    | .error u => .unordered u

def refuseUnknown (values : List Json) : Except EngineError Unit :=
  match values.filter (!isKnown ·) with
  | [] => .ok ()
  | first :: rest => .error (unknown first rest)

/-- The rules that a selection asks for, in the order of the registry. -/
def selected (enabled : Json) : Except EngineError (List (Text × Rule)) := do
  let values ← named enabled
  refuseUnknown values
  return if values.isEmpty then registry else registry.filter fun r => values.any (names · r.1)

def valueFor (value : Json) (rule : Text) : Except EngineError (Option Json) :=
  match value with
  | .object fields => .ok (Fields.get? fields rule)
  | value => if value.truthy then .error (.noValues value) else .ok none

def request (s : Settings) (r : Text × Rule) : Except EngineError Request := do
  let options ← valueFor s.options r.1
  let severity ← valueFor s.severities r.1
  return {
    rule := r.2
    options := Engine.optionList (options.getD .null)
    severity := severity.getD (.text "error") }

def build (s : Settings) : Except EngineError Engine := do
  refuseUnknown ((← named s.options) ++ (← named s.severities))
  let rules ← selected s.enabled
  Engine.ofRequests (← rules.mapM s.request)

end Settings

end ElementLint
