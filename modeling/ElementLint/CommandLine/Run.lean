import ElementLint.CommandLine.Arguments
import ElementLint.Engine.Settings
import ElementLint.Json.Writer
import ElementLint.Lint.Basic
import ElementLint.Node.Listing

/-!
# Running the linter

`CommandLine.run` is the linter from its arguments to what it prints: a JSON report on one line, or with
`--text` one line for each item. Its status is 2 if the arguments or the settings are at fault, 1 if some
file has an error, and 0 otherwise. Whether all that it prints can be written is up to the console.
-/

namespace ElementLint

inductive RunFailure where
  | usage (e : UsageError)
  | settings (e : EngineError)
  | lint (e : LintFailure)
  | load (e : LoadError)
  | numeral (e : NumeralError)
  | bound (e : Listing.BoundError)

def RunFailure.message : RunFailure → Text
  | .usage e => e.message
  | .settings e => e.message
  | .lint e => e.message
  | .load e => e.message
  | .numeral e => e.message
  | .bound e => e.message

/-- What a run prints, and how it ends. -/
structure Outcome where
  /-- The texts that are printed in the end, each on a line of its own. -/
  prints : List Text := []
  stderr : Text := []
  /-- The exit status, which may be left to the system. -/
  status : Except RunFailure (Option Nat)

/-- What is written where all texts can be. -/
def Outcome.stdout (o : Outcome) : Text := Text.unlines o.prints

namespace CommandLine

def isAnsweredUsage : UsageError → Bool
  | .badOptions _ (.tooDeep _) => false
  | _ => true

def isAnsweredSettings : EngineError → Bool
  | .unknownRules _ | .unknownSeverity _ _ => true
  | .options _ e => e.isRefusal
  | .containerName _ | .notName _ | .unordered _ | .noNames _ | .noValues _ => false

def isAnswered : RunFailure → Bool
  | .usage e => isAnsweredUsage e
  | .settings e => isAnsweredSettings e
  | _ => false

def settings (c : Config) : Settings where
  enabled := (c.enabled.map fun names => Json.list (names.map .text)).getD .null
  options := .object c.options
  severities := .object (c.severities.map fun (rule, level) => (rule, .text level))

/-- What the arguments ask for, and the engine for it. -/
def prepare (args : List Text) : Except RunFailure (Config × Engine) := do
  let config ← (Arguments.parse args).mapError .usage
  let engine ← (settings config).build.mapError .settings
  return (config, engine)

def refusal (json : Bool) (message : Text) : Text :=
  if json then (Json.object [("ok", .bool false), ("error", .text message)]).write else message

def jsonReport (engine : Engine) (results : List LintResult) : Text :=
  (Json.object [
    ("ok", .bool true),
    ("results", .list (results.map LintResult.toJson)),
    ("timing_ms", .object [("total", .float .zero)]),
    ("rules", .list engine.ruleIds)]).write

/-- The lines of a text report on one file, under a heading if there are several files. An item that lacks a
field gives no line. -/
def textPart (headed : Bool) (r : LintResult) : List Text :=
  (if headed then ["=== " ++ r.file ++ " ==="] else []) ++
    r.items.filterMap (fun i => (i.format r.file).toOption) ++ [r.timing.line]

/-- The lines of a text report, with an empty one between files. -/
def textReport (results : List LintResult) : List Text :=
  List.intercalate [[]] (results.map (textPart (1 < results.length)))

def statusOf (results : List LintResult) : Nat :=
  if results.any fun r => 0 < r.summary.errors then 1 else 0

/-- Lint files one after the other, up to the first that stops the run: the kinds of the nodes visited,
and the results. -/
def lintAll (reader : Reader) (files : FileSystem) (engine : Engine) :
    List Text → List NodeKind × Except LintFailure (List LintResult)
  | [] => ([], .ok [])
  | file :: rest =>
    match Lint.lintFile reader files engine file with
    | (visited, .error e) => (visited, .error e)
    | (visited, .ok result) =>
      let (more, results) := lintAll reader files engine rest
      (visited ++ more, results.map (result :: ·))

def run (reader : Reader) (files : FileSystem) (args : List Text) : Outcome :=
  let json := !args.elem (Text.ofString "--text")
  match prepare args with
  | .error e =>
    if isAnswered e then { prints := [refusal json e.message], status := .ok (some 2) }
    else { status := .error e }
  | .ok (config, engine) =>
    let (visited, results) := lintAll reader files engine config.files
    let stderr := if config.debug then visited.flatMap Lint.visitLine else []
    match results with
    | .error e => { stderr, status := .error (.lint e) }
    | .ok results =>
      { prints := if json then [jsonReport engine results] else textReport results
        stderr
        status := .ok (some (statusOf results)) }

end CommandLine

end ElementLint
