import ElementLint.Engine.Basic
import ElementLint.Json.Reader

/-!
# Arguments

The arguments of the linter are flags, options with a value, and files, in any order. Each flag and each
option is taken out of the arguments in turn, with the value that follows an option, and what is left are the
files. A later value for the same rule replaces an earlier one, and an option value for a rule replaces
what the flag `--loose` sets.
-/

namespace ElementLint

inductive UsageError where
  | missingValue (flag : Text)
  | notAssignment (flag value : Text)
  | badOptions (rule : Text) (e : JsonError)
  | unknownSeverity (rule level : Text)
  | unknownFlags (flags : List Text)
  | noFiles
deriving DecidableEq

def usage : Text :=
  "Usage: wclint [--text] [--rules a,b] [--loose] [--rule-option RULE=JSON] " ++
    "[--severity RULE=LEVEL] [--debug] FILE..."

/-- The wording of an error. Numbers that are too long and values that nest too deeply speak for
themselves. -/
def UsageError.message : UsageError → Text
  | .missingValue flag => "Missing value after " ++ flag ++ "."
  | .notAssignment flag value => "Expected RULE=VALUE after " ++ flag ++ ", got '" ++ value ++ "'."
  | .badOptions rule e =>
    match e with
    | .numeral e => e.message
    | .tooDeep _ => e.message
    | e => "Options for '" ++ rule ++ "' are not valid JSON: " ++ e.message ++ "."
  | .unknownSeverity rule level =>
    "Unknown severity '" ++ level ++ "' for '" ++ rule ++ "'. Valid severities: " ++
      Severity.listed ++ "."
  | .unknownFlags flags => "Unknown option(s): " ++ Text.joinWith ", " flags ++ ". " ++ usage
  | .noFiles => "No files provided. " ++ usage

/-- What the arguments ask for. -/
structure Config where
  debug : Bool := false
  /-- The names of the rules to run, or nothing for all. -/
  enabled : Option (List Text) := none
  options : Fields Json := []
  severities : Fields Text := []
  files : List Text := []

namespace Arguments

/-- Whether a flag is among the arguments, and the other arguments. -/
def takeFlag (flag : Text) (args : List Text) : Bool × List Text :=
  (args.elem flag, args.filter (· != flag))

/-- The arguments before the first occurrence of an option and those after it, if it occurs. -/
def cutAtFlag? (flag : Text) : List Text → Option (List Text × List Text)
  | [] => none
  | arg :: rest =>
    if arg = flag then some ([], rest)
    else (cutAtFlag? flag rest).map fun (before, after) => (arg :: before, after)

/-- The first occurrence of an option divides the arguments. -/
theorem eq_of_cutAtFlag? {flag : Text} {args before after : List Text}
    (h : cutAtFlag? flag args = some (before, after)) : args = before ++ flag :: after := by
  induction args generalizing before with
  | nil => simp [cutAtFlag?] at h
  | cons arg rest ih =>
    rw [cutAtFlag?] at h
    split at h
    · rename_i heq
      cases h
      simp [heq]
    · obtain ⟨⟨before', after'⟩, h', heq⟩ := Option.map_eq_some_iff.1 h
      cases heq
      simp [← ih h']

/-- The values that follow an option, and the other arguments: the option is taken out with its value
at its first occurrence, for as long as there is one. -/
def takeValues (flag : Text) (args : List Text) : Except UsageError (List Text × List Text) :=
  match _h : cutAtFlag? flag args with
  | none => .ok ([], args)
  | some (_, []) => .error (.missingValue flag)
  | some (before, value :: after) =>
    (takeValues flag (before ++ after)).map fun (values, kept) => (value :: values, kept)
termination_by args.length
decreasing_by
  rw [eq_of_cutAtFlag? _h]
  simp only [List.length_append, List.length_cons]
  omega

def equals : Nat := 0x3D

def splitAssignment (flag raw : Text) : Except UsageError (Text × Text) :=
  match Text.cutAt? equals raw with
  | none => .error (.notAssignment flag raw)
  | some (rule, value) =>
    if rule.strip.isEmpty then .error (.notAssignment flag raw) else .ok (rule.strip, value.strip)

def splitNames (raw : Text) : List Text :=
  ((Text.splitOn 0x2C raw).map Text.strip).filter (!·.isEmpty)

def putOptions (options : Fields Json) (raw : Text) : Except UsageError (Fields Json) := do
  let (rule, value) ← splitAssignment "--rule-option" raw
  match Json.read value with
  | .ok value => return options.put rule value
  | .error e => throw (.badOptions rule e)

def putSeverity (severities : Fields Text) (raw : Text) : Except UsageError (Fields Text) := do
  let (rule, level) ← splitAssignment "--severity" raw
  if (Severity.ofName? level).isSome then return severities.put rule level
  else throw (.unknownSeverity rule level)

def isFlag (arg : Text) : Bool := (Text.ofString "--").isPrefixOf arg

/-- The options that the flag `--loose` sets. -/
def looseOptions : Fields Json :=
  [("no-invalid-element-name", .object [("loose", .bool true)])]

def parse (args : List Text) : Except UsageError Config := do
  let (_, args) := takeFlag "--text" args
  let (debug, args) := takeFlag "--debug" args
  let (loose, args) := takeFlag "--loose" args
  let (rules, args) ← takeValues "--rules" args
  let (optionValues, args) ← takeValues "--rule-option" args
  let options ← optionValues.foldlM putOptions (if loose then looseOptions else [])
  let (severityValues, args) ← takeValues "--severity" args
  let severities ← severityValues.foldlM putSeverity []
  match args.filter isFlag with
  | [] =>
    if args.isEmpty then throw .noFiles
    else return { debug, enabled := rules.getLast?.map splitNames, options, severities, files := args }
  | flags => throw (.unknownFlags flags)

end Arguments

end ElementLint
