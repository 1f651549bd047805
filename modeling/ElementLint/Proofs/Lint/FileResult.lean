import ElementLint.Proofs.Lint.RuleIndependence
import ElementLint.Proofs.Tree.Problem

/-!
# The result for a file that parses

A program with problems gives the problems and a warning that the rules did not run. The warning is made
last and stands first: it bears the line of the first problem and no column, and every problem has a
column from one on. A program without problems gives what the rules report, sorted once more with the
errors before the warnings. `lintFile_of_parsed` says what the items and the summary are in the two
cases.
-/

namespace ElementLint

namespace Lint

open Attempt

/-- The result for a program with problems, of which `p` is the first. -/
structure LimitedTo (p : Problem) (rest : List Problem) (r : LintResult) : Prop where
  items : ∃ warning, r.items = warning :: (p :: rest).map Item.ofProblem ∧
    warning = Item.limited (.int p.position.line) ∧
    warning.severity = some (.text "warning") ∧ warning.source = some (.text "runtime") ∧
    warning.line = some (.int p.position.line) ∧ warning.column = some .null
  noRule : ∀ i ∈ r.items, i.source ≠ some (.text "rule") ∧ i.rule = some .null
  errors : r.summary.errors = (p :: rest).length
  warnings : r.summary.warnings = 1
  total : r.summary.total = (p :: rest).length + 1
  byRule : r.summary.byRule = []

/-- The result for a program without problems in which the rules found something. -/
structure ListsFound (made : List Diagnostic) (r : LintResult) : Prop where
  items : ∃ listed, Diagnostic.InReportOrder made listed ∧ r.items = listed.map Item.ofDiagnostic
  severities : r.summary.errors + r.summary.warnings = r.summary.total
  total : r.summary.total = r.items.length
  byRule : ∃ counts, r.summary.byRule = Summary.ofTexts counts ∧ Summary.CountsRules r.items counts

theorem problems_of_ofFile {reader : Reader} {files : FileSystem} {file : Text} {program : Program}
    (h : Program.ofFile reader files file = .ok program) :
    ∃ source tree, program.problems = Problem.ofTree source tree := by
  simp only [Program.ofFile, Program.ofBytes] at h
  repeat' split at h
  all_goals cases h
  exact ⟨_, _, rfl⟩

/-- The first problem in order is on the least line. -/
theorem firstLine_cons {p : Problem} {rest : List Problem}
    (h : ∀ q ∈ rest, p.position.line ≤ q.position.line) :
    firstLine (p :: rest) = some p.position.line := by
  have hmin : rest.foldl (fun line q => min line q.position.line) p.position.line = p.position.line := by
    induction rest with
    | nil => rfl
    | cons q rest ih =>
      obtain ⟨hq, hrest⟩ := List.forall_mem_cons.1 h
      rw [List.foldl_cons, min_eq_left hq, ih hrest]
  rw [firstLine, hmin]

theorem isWarning_ofProblem (p : Problem) : Summary.isWarning (Item.ofProblem p) = false := rfl

theorem isWarning_limited (line : Json) : Summary.isWarning (Item.limited line) = true := rfl

/-- A program with problems: the engine does not matter. -/
theorem lintFile_of_problems {reader : Reader} {files : FileSystem} {file : Text} {program : Program}
    (hload : Program.ofFile reader files file = .ok program) {p : Problem} {rest : List Problem}
    (hproblems : program.problems = p :: rest) (e : Engine) :
    ∃ path, files.realPath file = .ok path ∧ (lintFile reader files e file).2 = .ok {
      file, path, error := none
      items := Item.limited (.int p.position.line) :: (p :: rest).map Item.ofProblem } := by
  obtain ⟨source, tree, htree⟩ := problems_of_ofFile hload
  rw [hproblems] at htree
  have hsorted := Problem.pairwise_ofTree source tree
  rw [← htree] at hsorted
  have hcolumn : ∀ q ∈ p :: rest, 1 ≤ q.position.column := by
    rw [htree]
    exact fun q hq => Problem.one_le_column_of_mem_ofTree hq
  have hline : ∀ q ∈ p :: rest, p.position.line ≤ q.position.line := by
    refine List.forall_mem_cons.2 ⟨le_rfl, fun q hq => ?_⟩
    have hle := (Position.le_iff _ _).1 ((List.pairwise_cons.1 hsorted).1 q hq)
    omega
  refine lintFile_of_load hload ?_
  rw [hproblems, itemsOf, firstLine_cons fun q hq => hline q (List.mem_cons_of_mem p hq)]
  exact congrArg Except.ok (Item.sort_limited hsorted hline hcolumn)

/-- What the summary of such a program counts. -/
theorem limitedTo_result {p : Problem} {rest : List Problem} {r : LintResult}
    (h : r.items = Item.limited (.int p.position.line) :: (p :: rest).map Item.ofProblem) :
    LimitedTo p rest r := by
  have hrule : ∀ i ∈ r.items, i.source ≠ some (.text "rule") ∧ i.rule = some .null := by
    have hruntime : some (Json.text "runtime") ≠ some (.text "rule") := by decide
    have hparser : some (Json.text "parser") ≠ some (.text "rule") := by decide
    rw [h]
    refine List.forall_mem_cons.2 ⟨⟨hruntime, rfl⟩, fun i hi => ?_⟩
    obtain ⟨q, -, rfl⟩ := List.mem_map.1 hi
    exact ⟨hparser, rfl⟩
  have hwarning : ∀ i ∈ (p :: rest).map Item.ofProblem, Summary.isWarning i = false := by
    intro i hi
    obtain ⟨q, -, rfl⟩ := List.mem_map.1 hi
    exact isWarning_ofProblem q
  refine ⟨⟨_, h, rfl, rfl, rfl, rfl, rfl⟩, hrule, ?_, ?_, ?_, ?_⟩
  · rw [LintResult.summary, Summary.errors_ofItems, h, List.countP_cons_of_neg (by simp [isWarning_limited]),
      List.countP_eq_length.2 fun i hi => by rw [hwarning i hi]; rfl, List.length_map]
  · rw [LintResult.summary, Summary.warnings_ofItems, h, List.countP_cons_of_pos (isWarning_limited _),
      List.countP_eq_zero.2 fun i hi => by simp [hwarning i hi]]
  · rw [LintResult.summary, Summary.total_ofItems, h, List.length_cons, List.length_map]
  · exact Summary.byRule_eq_nil fun i hi => (hrule i hi).2

/-- What an engine finds is of rules with names. -/
theorem named_of_run {s : Settings} {e : Engine} (hbuild : s.build = .ok e) {nodes : List Node}
    {made : List Diagnostic} (h : e.run nodes = .ok made) :
    ∀ d ∈ made, Summary.Named (Item.ofDiagnostic d) := by
  rw [Engine.run_eq_ok (Settings.steady_of_build hbuild)] at h
  cases h
  intro d hd
  obtain ⟨n, -, hd⟩ := List.mem_flatMap.1 (List.mem_mergeSort.1 hd)
  obtain ⟨x, hx, hd⟩ := List.mem_flatMap.1 hd
  obtain ⟨report, -, rfl⟩ := List.mem_map.1 hd
  obtain ⟨name, hname⟩ := Settings.mem_registry_of_build hbuild (List.mem_of_mem_filter hx)
  have hne : ∀ entry ∈ registry, entry.1 ≠ [] := by decide
  exact .inr ⟨name, hne _ hname, congrArg some (id_of_mem_registry hname)⟩

/-- A program without problems: the rules run, and the summary counts what they found. -/
theorem lintFile_of_no_problems {reader : Reader} {files : FileSystem} {file : Text}
    {program : Program} (hload : Program.ofFile reader files file = .ok program)
    (hclean : program.problems = []) {s : Settings} {e : Engine} (hbuild : s.build = .ok e) :
    ∃ made r, e.run ((program.root.walk 0).map Visit.node) = .ok made ∧
      (lintFile reader files e file).2 = .ok r ∧ r.error = none ∧ ListsFound made r := by
  obtain ⟨made, hrun⟩ : ∃ made, e.run ((program.root.walk 0).map Visit.node) = .ok made :=
    ⟨_, Engine.run_eq_ok (Settings.steady_of_build hbuild) _⟩
  obtain ⟨listed, horder, hitems⟩ := Item.exists_inReportOrder made
  have hitemsOf : itemsOf e (program.root.walk 0) program.problems =
      .ok (listed.map Item.ofDiagnostic) := by
    rw [hclean, itemsOf, firstLine, hrun, ← hitems]
  obtain ⟨path, -, hlint⟩ := lintFile_of_load hload hitemsOf
  refine ⟨made, _, hrun, hlint, rfl, ⟨listed, horder, rfl⟩, rfl, ?_, ?_⟩
  · exact Summary.total_ofItems _
  · refine Summary.exists_countsRules fun i hi => ?_
    obtain ⟨d, hd, rfl⟩ := List.mem_map.1 hi
    exact named_of_run hbuild hrun d (horder.perm.subset hd)

/-- The result for a file that parses: with problems it is limited to them, whatever the engine, and
without problems it lists what the engine finds. -/
theorem lintFile_of_parsed (reader : Reader) (files : FileSystem) (file : Text) (program : Program)
    (hload : Program.ofFile reader files file = .ok program) (s : Settings) (e : Engine)
    (hbuild : s.build = .ok e) :
    ∃ r, (lintFile reader files e file).2 = .ok r ∧ r.error = none ∧
      (∀ p rest, program.problems = p :: rest → LimitedTo p rest r) ∧
      (program.problems = [] →
        ∃ made, e.run ((program.root.walk 0).map Visit.node) = .ok made ∧ ListsFound made r) := by
  cases hproblems : program.problems with
  | nil =>
    obtain ⟨made, r, hrun, hr, herror, hlists⟩ := lintFile_of_no_problems hload hproblems hbuild
    exact ⟨r, hr, herror, nofun, fun _ => ⟨made, hrun, hlists⟩⟩
  | cons p rest =>
    obtain ⟨path, -, hlint⟩ := lintFile_of_problems hload hproblems e
    refine ⟨_, hlint, rfl, ?_, nofun⟩
    intro q rest' heq
    cases heq
    exact limitedTo_result rfl

/-- The tree of a text with a bracket too many on each of its two lines. -/
def bracketsTree : Tree :=
  .node { type := "program", start := 0, stop := 5, row := 0, column := 0, named := true,
          hasError := true } [
    Tree.namedNode "expression_statement" 0 1 none [Tree.namedNode "identifier" 0 1 none []],
    .node { type := "ERROR", start := 2, stop := 3, row := 0, column := 2, named := true,
            hasError := true } [],
    .node { type := "ERROR", start := 4, stop := 5, row := 1, column := 0, named := true,
            hasError := true } []]

def bracketsText : List UInt8 := Utf8.encode "a )\n]"

/-- Every text is read as that one. -/
def bracketsReader : Reader where
  grammar _ := some bracketsTree

def bracketsFiles : FileSystem where
  lookup _ := .file bracketsText
  realPath path := .ok path
  exists_realPath _ _ := ⟨_, rfl⟩

def bracketsProgram : Program where
  root := .program ⟨1, 1⟩ [.exprStmt ⟨1, 1⟩ (.identifier ⟨1, 1⟩ "a"), .other ⟨1, 3⟩ "ERROR" [],
    .other ⟨2, 1⟩ "ERROR" []]
  problems := [⟨⟨1, 3⟩, "Unexpected token ')'"⟩, ⟨⟨2, 1⟩, "Unexpected token ']'"⟩]

theorem ofFile_brackets :
    Program.ofFile bracketsReader bracketsFiles "a.js" = .ok bracketsProgram := by
  have hroot : Node.ofTree (Node.View.ofSource (Source.ofBytes bracketsText)) Node.maxDepth bracketsTree =
      .ok bracketsProgram.root := rfl
  have hpending : Problem.inPending (Source.ofBytes bracketsText) [bracketsTree] =
      bracketsProgram.problems.reverse := by
    cbv
  have hproblems : Problem.ofTree (Source.ofBytes bracketsText) bracketsTree = bracketsProgram.problems := by
    have herror : bracketsTree.label.hasError = true := rfl
    rw [Problem.ofTree, if_pos herror, hpending]
    simp [List.mergeSort, bracketsProgram, Position.le]
  have htext : Utf8.decode? bracketsText = some (Text.ofString "a )\n]") := rfl
  simp only [Program.ofFile, bracketsFiles, bracketsReader, htext, Program.ofBytes, hroot, hproblems]

/-- A file with two problems and one with a bad element name. -/
theorem lintFile_of_parsed_brackets :
    (Program.ofFile bracketsReader bracketsFiles "a.js" = .ok bracketsProgram ∧
      ∃ e, Settings.build {} = .ok e ∧
        ∃ r, (lintFile bracketsReader bracketsFiles e "a.js").2 = .ok r ∧
          r.items = Item.limited (.int 1) :: bracketsProgram.problems.map Item.ofProblem ∧
          r.summary.errors = 2 ∧ r.summary.warnings = 1) ∧
    (Program.ofFile defineReader defineFiles "a.js" = .ok defineProgram ∧
      ∃ e, warnSettings.build = .ok e ∧
        ∃ r, (lintFile defineReader defineFiles e "a.js").2 = .ok r ∧
          ∃ made, e.run ((defineProgram.root.walk 0).map Visit.node) = .ok made ∧
            ListsFound made r) := by
  constructor
  · refine ⟨ofFile_brackets, _, rfl, ?_⟩
    obtain ⟨r, hr, -, hlimited, -⟩ := lintFile_of_parsed bracketsReader bracketsFiles "a.js"
      bracketsProgram ofFile_brackets {} _ rfl
    have h := hlimited _ _ rfl
    obtain ⟨_, hitems, rfl, -⟩ := h.items
    exact ⟨r, hr, hitems, h.errors, h.warnings⟩
  · refine ⟨rfl, _, rfl, ?_⟩
    obtain ⟨r, hr, -, -, hfound⟩ := lintFile_of_parsed defineReader defineFiles "a.js"
      defineProgram rfl warnSettings _ rfl
    exact ⟨r, hr, hfound rfl⟩

end Lint

end ElementLint
