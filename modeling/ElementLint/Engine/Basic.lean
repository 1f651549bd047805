import ElementLint.Engine.Options
import ElementLint.Node.Walk

/-!
# The engine

An engine is a list of rules with their options and severities, all of which have been checked.
`Engine.run` shows every node to every rule that is not off and lists what they report by position;
reports at one position stay in the order in which they were made.
-/

namespace ElementLint

inductive Severity where
  | error
  | warn
  | off
deriving DecidableEq, Inhabited

namespace Severity

def name : Severity → Text
  | .error => "error"
  | .warn => "warn"
  | .off => "off"

def all : List Severity := [.error, .off, .warn]

def ofName? (name : Text) : Option Severity :=
  all.find? fun s => s.name == name

def listed : Text := Text.joinWith ", " (all.map name)

end Severity

structure Entry where
  rule : Rule
  options : List Json
  severity : Severity

/-- Rules whose options and severities have been checked. -/
structure Engine where
  entries : List Entry

/-- What is asked of an engine: a rule with options and a severity that have not been checked. -/
structure Request where
  rule : Rule
  options : List Json := []
  severity : Json := .text "error"

inductive EngineError where
  | unknownRules (names : List Text)
  /-- A list or an object stands where a name is needed. -/
  | containerName (value : Json)
  | notName (value : Json)
  /-- Names that are to be listed stand in no order. -/
  | unordered (u : Json.Unordered)
  /-- Rules are given by a value that holds no names. -/
  | noNames (value : Json)
  /-- Options or severities are given by a value that has names and no values for them. -/
  | noValues (value : Json)
  | unknownSeverity (rule : Text) (severity : Json)
  | options (rule : Text) (e : OptionError)
deriving DecidableEq

namespace Engine

/-- Options as a list: none at all is an empty list, and a single value stands for a list of one. -/
def optionList : Json → List Json
  | .null => []
  | .list options => options
  | option => [option]

def accept (r : Request) : Except EngineError Entry :=
  if r.severity.isContainer then .error (.containerName r.severity)
  else
    match r.severity with
    | .text name =>
      match Severity.ofName? name with
      | none => .error (.unknownSeverity r.rule.id.shown r.severity)
      | some severity =>
        match Options.check r.rule (.list r.options) with
        | .error e => .error (.options r.rule.id.shown e)
        | .ok _ => .ok ⟨r.rule, r.options, severity⟩
    | other => .error (.unknownSeverity r.rule.id.shown other)

def ofRequests (requests : List Request) : Except EngineError Engine :=
  (requests.mapM accept).map Engine.mk

def active (e : Engine) : List Entry :=
  e.entries.filter (·.severity != .off)

def ruleIds (e : Engine) : List Json :=
  e.active.map (·.rule.id)

end Engine

structure Diagnostic where
  rule : Json
  messageId : Text
  message : Json
  severity : Severity
  position : Position
deriving DecidableEq

namespace Diagnostic

def le (a b : Diagnostic) : Bool := a.position.le b.position

end Diagnostic

namespace Engine

def checkOf (e : Entry) : Except RuleFailure (Entry × Check) :=
  (e.rule.check e.options).map fun check => (e, check)

def diagnose (e : Entry) (r : Report) : Except RuleFailure Diagnostic :=
  match e.rule.messages.get? r.messageId with
  | some message => .ok ⟨e.rule.id, r.messageId, message, e.severity, r.position⟩
  | none => .error (.unknownMessage (.text r.messageId))

def findAt (n : Node) (c : Entry × Check) : Except RuleFailure (List Diagnostic) := do
  (← c.2 n).mapM (diagnose c.1)

def visit (checks : List (Entry × Check)) (n : Node) : Except RuleFailure (List Diagnostic) :=
  (checks.mapM (findAt n)).map List.flatten

/-- What the rules that are not off find at some nodes, by position. -/
def run (e : Engine) (nodes : List Node) : Except RuleFailure (List Diagnostic) := do
  let checks ← e.active.mapM checkOf
  let found ← nodes.mapM (visit checks)
  return found.flatten.mergeSort Diagnostic.le

end Engine

end ElementLint
