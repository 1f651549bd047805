import ElementLint.Lint.Load
import ElementLint.Report.Summary
import ElementLint.Report.Timing

/-!
# Linting a file

`lintFile` loads a file, runs an engine over its nodes and reports what comes of it. A file that cannot be
loaded gives a report with one item. A file whose text breaks the grammar gives the problems and a
warning that the rules did not run.
-/

namespace ElementLint

structure LintResult where
  file : Text
  path : Text
  /-- Why the file could not be linted, if it could not. -/
  error : Option Text
  items : List Item
  timing : Timing := {}

namespace LintResult

def summary (r : LintResult) : Summary := Summary.ofItems r.items

def fields (r : LintResult) : Fields Json :=
  [("file", .text r.file), ("path", .text r.path), ("ok", .bool r.error.isNone),
    ("error", Item.textOrNull r.error), ("items", .list (r.items.map Item.toJson)),
    ("summary", r.summary.toJson)]

def toJson (r : LintResult) : Json :=
  .object (r.fields.put "timing_ms" r.timing.toJson)

end LintResult

inductive LintFailure where
  | load (e : LoadError)
  | rule (e : RuleFailure)
deriving DecidableEq

def LintFailure.message : LintFailure → Text
  | .load e => e.message
  | .rule e => e.message

namespace Lint

def firstLine : List Problem → Option Nat
  | [] => none
  | p :: rest => some (rest.foldl (fun line q => min line q.position.line) p.position.line)

/-- The items of a program: its problems if it has any, and what the rules find otherwise. -/
def itemsOf (engine : Engine) (visits : List Visit) (problems : List Problem) :
    Except RuleFailure (List Item) :=
  match firstLine problems with
  | some line =>
    .ok (Item.sort (problems.map Item.ofProblem ++ [Item.limited (.int line)]))
  | none =>
    match engine.run (visits.map (·.node)) with
    | .error e => .error e
    | .ok diagnostics => .ok (Item.sort (diagnostics.map Item.ofDiagnostic))

def failed (file path : Text) (e : LoadError) : LintResult :=
  let message := "Failed to parse " ++ Path.baseName file ++ ": " ++ e.message
  { file, path, error := some message, items := [Item.failure message] }

/-- Lint a file: the kinds of the nodes that were visited, in order, and the result. -/
def lintFile (reader : Reader) (files : FileSystem) (engine : Engine) (file : Text) :
    List NodeKind × Except LintFailure LintResult :=
  match files.realPath file with
  | .error e => ([], .error (.load (.noPath e)))
  | .ok path =>
    match Program.ofFile reader files file with
    | .error e => ([], if e.isReported then .ok (failed file path e) else .error (.load e))
    | .ok program =>
      let visits := program.root.walk 0
      (visits.map (·.node.kind),
        match itemsOf engine visits program.problems with
        | .error e => .error (.rule e)
        | .ok items => .ok { file, path, error := none, items })

def visitLine (kind : NodeKind) : Text :=
  "VISITING: " ++ Text.ofString kind.name ++ "\n"

end Lint

end ElementLint
