import ElementLint.Proofs.CommandLine.Console
import ElementLint.Proofs.Engine.Run
import ElementLint.Proofs.Node.Readable

/-!
# Runs that complete

A file that cannot be read, decoded or converted is reported and the run goes on, with two exceptions: a
literal without a value stops the run, and so does an argument that is no path at all. `Lint.Stops` says
when that is so, for any bound on the depth of trees. The main statement is that, with a grammar whose trees
have the operators and the spellings of the language, a run gives one result for each file in the order of
the arguments unless one of the files stops it, and that the results are written on every console that takes
what is printed.
-/

namespace ElementLint

open Attempt

/-- A grammar whose trees have the operators and the spellings of the language. -/
def Grammar.Obedient (grammar : Grammar) : Prop :=
  ∀ bytes tree, (Utf8.decode? bytes).isSome = true → grammar bytes = some tree →
    Node.Obeys (.ofSource (.ofBytes bytes)) tree

namespace Lint

/-- What stops a run at an argument: the argument is no path, or it is a file whose tree is not too deep and
in which conversion comes to a literal without a value. -/
inductive Stops (reader : Reader) (files : FileSystem) (file : Text) : Prop
  | path (e : PathError) (hpath : files.realPath file = .error e)
  | literal (bytes : List UInt8) (tree u : Tree) (hfile : files.lookup file = .file bytes)
      (hdecode : (Utf8.decode? bytes).isSome = true) (htree : reader.grammar bytes = some tree)
      (hdepth : Node.ofTree (.ofSource (.ofBytes bytes)) reader.depth tree ≠ .error .tooDeep)
      (hreaches : tree.Reaches u) (hvalue : Node.Meaningless (.ofSource (.ofBytes bytes)) u)

/-- What is reported on a file: that it could not be loaded, in one item, or that it could. -/
def Reports (reader : Reader) (files : FileSystem) (file : Text) (r : LintResult) : Prop :=
  r.file = file ∧ files.realPath file = .ok r.path ∧
    match Program.ofFile reader files file with
    | .error _ => ∃ message, r.error = some message ∧ r.items = [{
        severity := some (.text "error"), source := some (.text "runtime")
        rule := some .null, messageId := some .null, line := some .null, column := some .null
        message := some (.text message) }]
    | .ok _ => r.error = none

variable {reader : Reader} {files : FileSystem} {engine : Engine}

theorem ofBytes_meaningless_iff {path : Option Text} {bytes : List UInt8} {tree : Tree}
    (htree : reader.grammar bytes = some tree) (h : Node.Obeys (.ofSource (.ofBytes bytes)) tree) :
    (∃ e, Program.ofBytes reader path bytes = .error (.meaningless e)) ↔
      Node.ofTree (.ofSource (.ofBytes bytes)) reader.depth tree ≠ .error .tooDeep ∧
        ∃ u, tree.Reaches u ∧ Node.Meaningless (.ofSource (.ofBytes bytes)) u := by
  rw [← Node.not_succeeds_convert_iff h, Program.ofBytes, htree]
  dsimp only
  rcases Node.ofTree_eq_convert (.ofSource (.ofBytes bytes)) reader.depth tree with hdeep | hsame
  · rw [hdeep]
    exact iff_of_false (by simp) fun h => h.1 rfl
  · rw [hsame]
    have hdeep := Node.convert_ne_tooDeep (.ofSource (.ofBytes bytes)) tree
    cases hroot : Node.convert (.ofSource (.ofBytes bytes)) tree with
    | ok root => exact iff_of_false (by simp) fun h => h.2 (succeeds_ok root)
    | error e =>
      rw [hroot] at hdeep
      refine iff_of_true ⟨e, ?_⟩ ⟨hdeep, not_succeeds_error e⟩
      cases e with
      | tooDeep => exact absurd rfl hdeep
      | missingOperator => rfl
      | escape e => rfl
      | numeral e => rfl

/-- The one failure to load a file that is not reported is a literal without a value. -/
theorem isReported_of_ofFile {file : Text} {e : LoadError}
    (h : Program.ofFile reader files file = .error e) :
    e.isReported = true ∨ ∃ c, e = .meaningless c := by
  simp only [Program.ofFile, Program.ofBytes] at h
  repeat' split at h
  all_goals cases h
  all_goals first | exact .inl rfl | exact .inr ⟨_, rfl⟩

/-- A run stops at an argument if it is no path, or if the program there has a literal without a value. -/
theorem stops_iff (h : reader.grammar.Obedient) (file : Text) :
    Stops reader files file ↔
      (∃ e, files.realPath file = .error e) ∨
        ∃ e, Program.ofFile reader files file = .error (.meaningless e) := by
  constructor
  · intro hstops
    cases hstops with
    | path e hpath => exact .inl ⟨e, hpath⟩
    | literal bytes tree u hfile hdecode htree hdepth hreaches hvalue =>
      obtain ⟨text, htext⟩ := Option.isSome_iff_exists.1 hdecode
      simp only [Program.ofFile, hfile, htext]
      exact .inr ((ofBytes_meaningless_iff htree (h bytes tree hdecode htree)).2 ⟨hdepth, u, hreaches, hvalue⟩)
  · rintro (⟨e, hpath⟩ | ⟨e, hload⟩)
    · exact .path e hpath
    · unfold Program.ofFile at hload
      cases hfile : files.lookup file with
      | missing | directory | unreadable => simp [hfile] at hload
      | file bytes =>
        cases htext : Utf8.decode? bytes with
        | none => simp [hfile, htext] at hload
        | some text =>
          have hdecode : (Utf8.decode? bytes).isSome = true := by rw [htext, Option.isSome_some]
          simp only [hfile, htext] at hload
          cases htree : reader.grammar bytes with
          | none => simp [Program.ofBytes, htree] at hload
          | some tree =>
            obtain ⟨hdepth, u, hreaches, hvalue⟩ :=
              (ofBytes_meaningless_iff htree (h bytes tree hdecode htree)).1 ⟨e, hload⟩
            exact .literal bytes tree u hfile hdecode htree hdepth hreaches hvalue

theorem succeeds_itemsOf (h : ∀ x ∈ engine.active, x.Steady) (visits : List Visit)
    (problems : List Problem) : Succeeds (itemsOf engine visits problems) := by
  rw [itemsOf]
  split
  · exact succeeds_ok _
  · rw [Engine.run_eq_ok h]
    exact succeeds_ok _

/-- A path whose program can be loaded, or whose failure to load is reported, is reported on. -/
theorem lintFile_reports (h : ∀ x ∈ engine.active, x.Steady) {file path : Text}
    (hpath : files.realPath file = .ok path)
    (hgoes : ¬∃ e, Program.ofFile reader files file = .error (.meaningless e)) :
    ∃ r, (lintFile reader files engine file).2 = .ok r ∧ Reports reader files file r := by
  unfold lintFile Reports
  rw [hpath]
  cases hload : Program.ofFile reader files file with
  | error e =>
    have hreported : e.isReported = true := by
      refine (isReported_of_ofFile hload).resolve_right ?_
      rintro ⟨c, rfl⟩
      exact hgoes ⟨c, hload⟩
    dsimp only
    rw [if_pos hreported]
    exact ⟨_, rfl, rfl, rfl, _, rfl, rfl⟩
  | ok program =>
    obtain ⟨items, hitems⟩ := succeeds_itemsOf h (program.root.walk 0) program.problems
    dsimp only
    rw [hitems]
    exact ⟨_, rfl, rfl, rfl, rfl⟩

/-- Whether linting a file gives a result has nothing to do with the rules. -/
theorem exists_lintFile_iff (h : ∀ x ∈ engine.active, x.Steady) (file : Text) :
    (∃ r, (lintFile reader files engine file).2 = .ok r) ↔
      (∃ path, files.realPath file = .ok path) ∧
        ¬∃ e, Program.ofFile reader files file = .error (.meaningless e) := by
  constructor
  · rintro ⟨r, hr⟩
    cases hpath : files.realPath file with
    | error e => simp [lintFile, hpath] at hr
    | ok path =>
      refine ⟨⟨path, rfl⟩, ?_⟩
      rintro ⟨e, hload⟩
      simp [lintFile, hpath, hload, LoadError.isReported] at hr
  · rintro ⟨⟨path, hpath⟩, hgoes⟩
    obtain ⟨r, hr, -⟩ := lintFile_reports h hpath hgoes
    exact ⟨r, hr⟩

section Obedient

variable (hgrammar : reader.grammar.Obedient) (hsteady : ∀ x ∈ engine.active, x.Steady) {file : Text}
include hgrammar hsteady

theorem lintFile_of_stops (h : Stops reader files file) :
    ∃ e, (lintFile reader files engine file).2 = .error e := by
  rw [← not_succeeds_iff, Succeeds, exists_lintFile_iff hsteady]
  rintro ⟨⟨path, hpath⟩, hgoes⟩
  rcases (stops_iff hgrammar file).1 h with ⟨e, he⟩ | hmeaningless
  · rw [hpath] at he
    cases he
  · exact hgoes hmeaningless

theorem lintFile_of_not_stops (h : ¬Stops reader files file) :
    ∃ r, (lintFile reader files engine file).2 = .ok r ∧ Reports reader files file r := by
  obtain ⟨hpath, hload⟩ := not_or.1 (mt (stops_iff hgrammar file).2 h)
  cases hreal : files.realPath file with
  | error e => exact absurd ⟨e, hreal⟩ hpath
  | ok path => exact lintFile_reports hsteady hreal hload

/-- A file with a result does not stop the run. -/
theorem reports_of_lintFile {r : LintResult} (hr : (lintFile reader files engine file).2 = .ok r) :
    Reports reader files file r := by
  have hnot : ¬Stops reader files file := by
    intro hstops
    exact not_succeeds_iff.2 (lintFile_of_stops hgrammar hsteady hstops) ⟨r, hr⟩
  obtain ⟨r', hr', hreports⟩ := lintFile_of_not_stops hgrammar hsteady hnot
  cases hr.symm.trans hr'
  exact hreports

end Obedient

end Lint

namespace CommandLine

open Lint

variable {reader : Reader} {files : FileSystem} {engine : Engine}

/-- The files are linted one by one, up to the first that stops the run. -/
theorem lintAll_eq_mapM (reader : Reader) (files : FileSystem) (engine : Engine)
    (paths : List Text) :
    (lintAll reader files engine paths).2 =
      paths.mapM fun file => (lintFile reader files engine file).2 := by
  induction paths with
  | nil => rfl
  | cons file paths ih =>
    rw [lintAll, List.mapM_cons, ← ih]
    rcases lintFile reader files engine file with ⟨visited, e | r⟩
    · rfl
    · rcases lintAll reader files engine paths with ⟨more, e | results⟩ <;> rfl

theorem prepare_of_parse {args : List Text} {config : Config} (h : Arguments.parse args = .ok config) :
    prepare args = ((settings config).build.mapError .settings).map fun engine => (config, engine) := by
  rw [prepare, h]
  rfl

theorem prepare_of_build {args : List Text} {config : Config} (hparse : Arguments.parse args = .ok config)
    (hbuild : (settings config).build = .ok engine) : prepare args = .ok (config, engine) := by
  rw [prepare_of_parse hparse, hbuild]
  rfl

theorem build_of_prepare {args : List Text} {config : Config}
    (h : prepare args = .ok (config, engine)) : (settings config).build = .ok engine := by
  obtain ⟨config', _, h⟩ := bind_eq_ok_iff.1 h
  obtain ⟨engine', hbuild, h⟩ := bind_eq_ok_iff.1 h
  cases h
  exact mapError_eq_ok_iff.1 hbuild

theorem steady_of_prepare {args : List Text} {config : Config}
    (h : prepare args = .ok (config, engine)) : ∀ x ∈ engine.active, x.Steady :=
  Settings.steady_of_build (build_of_prepare h)

/-- What a run gives once its arguments are accepted. -/
theorem run_of_prepare (reader : Reader) (files : FileSystem) {args : List Text} {config : Config}
    (h : prepare args = .ok (config, engine)) :
    (∀ e, (lintAll reader files engine config.files).2 = .error e →
      (run reader files args).status = .error (.lint e) ∧ (run reader files args).prints = []) ∧
    ∀ results, (lintAll reader files engine config.files).2 = .ok results →
      (run reader files args).status = .ok (some (statusOf results)) ∧
      (run reader files args).prints =
        if args.elem (Text.ofString "--text") then textReport results
        else [jsonReport engine results] := by
  unfold run
  rw [h]
  dsimp only
  rcases lintAll reader files engine config.files with ⟨visited, e | results⟩
  · constructor
    · intro e' he
      cases he
      exact ⟨rfl, rfl⟩
    · intro results hresults
      cases hresults
  · constructor
    · intro e he
      cases he
    · intro results' hresults
      cases hresults
      refine ⟨rfl, ?_⟩
      cases args.elem (Text.ofString "--text") <;> rfl

/-- A run that comes to a failure stops on every console. -/
theorem runOn_of_failure {console : Console} {args : List Text} {e : RunFailure}
    (hstatus : (run reader files args).status = .error e) (hprints : (run reader files args).prints = []) :
    (runOn console reader files args).status = .error (.failure e) := by
  have htakes : console.Takes (run reader files args).prints := by
    rw [hprints]
    exact List.forall_mem_nil _
  rw [(runOn_of_takes htakes).2, hstatus]
  rfl

/-- With accepted arguments, a file is reported on unless it stops the run, and the run gives one result
for each file, in the order of the arguments, unless one of the files stops it. The results are printed, and
a console that takes what is printed has all of it; without `--text` every console for ASCII does. -/
theorem run_one_result_per_file_unless_stopped (reader : Reader) (hgrammar : reader.grammar.Obedient)
    (files : FileSystem) {args : List Text} {config : Config}
    (hargs : prepare args = .ok (config, engine)) (console : Console) :
    (∀ file,
      (Stops reader files file ∧ ∃ e, (lintFile reader files engine file).2 = .error e) ∨
      (¬Stops reader files file ∧
        ∃ r, (lintFile reader files engine file).2 = .ok r ∧ Reports reader files file r)) ∧
    ((∃ file ∈ config.files, Stops reader files file) →
      ∃ e, (runOn console reader files args).status = .error (.failure (.lint e))) ∧
    ((∀ file ∈ config.files, ¬Stops reader files file) →
      ∃ results : List LintResult,
        List.Forall₂ (fun file r =>
          (lintFile reader files engine file).2 = .ok r ∧ Reports reader files file r)
          config.files results ∧
        (run reader files args).prints =
          (if args.elem (Text.ofString "--text") then textReport results
            else [jsonReport engine results]) ∧
        (console.Takes (run reader files args).prints →
          (runOn console reader files args).status = .ok (some (statusOf results)) ∧
          (runOn console reader files args).stdout = Text.unlines (run reader files args).prints)) ∧
    (console.TakesAscii → Text.ofString "--text" ∉ args →
      console.Takes (run reader files args).prints) := by
  have hsteady := steady_of_prepare hargs
  obtain ⟨hfailed, hdone⟩ := run_of_prepare reader files hargs
  refine ⟨?_, ?_, ?_, takes_prints_of_ascii⟩
  · intro file
    by_cases h : Stops reader files file
    · exact .inl ⟨h, lintFile_of_stops hgrammar hsteady h⟩
    · exact .inr ⟨h, lintFile_of_not_stops hgrammar hsteady h⟩
  · rintro ⟨file, hfile, h⟩
    obtain ⟨e, he⟩ : ∃ e, (lintAll reader files engine config.files).2 = .error e := by
      rw [← not_succeeds_iff, lintAll_eq_mapM, succeeds_mapM_iff]
      intro hall
      exact not_succeeds_iff.2 (lintFile_of_stops hgrammar hsteady h) (hall file hfile)
    obtain ⟨hstatus, hprints⟩ := hfailed e he
    exact ⟨e, runOn_of_failure hstatus hprints⟩
  · intro h
    obtain ⟨results, hresults⟩ : Succeeds (lintAll reader files engine config.files).2 := by
      rw [lintAll_eq_mapM, succeeds_mapM_iff]
      intro file hfile
      obtain ⟨r, hr, -⟩ := lintFile_of_not_stops hgrammar hsteady (h file hfile)
      exact ⟨r, hr⟩
    obtain ⟨hstatus, hprints⟩ := hdone results hresults
    refine ⟨results, ?_, hprints, ?_⟩
    · rw [lintAll_eq_mapM, mapM_eq_ok_iff] at hresults
      exact hresults.imp fun file r hr => ⟨hr, reports_of_lintFile hgrammar hsteady hr⟩
    · intro htakes
      obtain ⟨hwritten, hended⟩ := runOn_of_takes htakes
      rw [hended, hstatus]
      exact ⟨rfl, hwritten⟩

/-- A text that is a string with an escape sequence beyond the last code point. -/
def hugeEscape : List UInt8 := Utf8.encode "'\\u\x7b110000\x7d'"

def hugeEscapeTree : Tree :=
  .namedNode "program" 0 12 none [.namedNode "expression_statement" 0 12 none [
    .namedNode "string" 0 12 none [
      .token "'" 0 1, .namedNode "escape_sequence" 1 11 none [], .token "'" 11 12]]]

/-- A reader of that text. -/
def hugeEscapeReader : Reader where
  grammar bytes := if bytes = hugeEscape then some hugeEscapeTree else none

/-- There is one file, and it has that text. -/
def hugeEscapeFiles : FileSystem where
  lookup path := if path = Text.ofString "huge.js" then .file hugeEscape else .missing
  realPath path := .ok path
  exists_realPath _ _ := ⟨_, rfl⟩

theorem obedient_hugeEscapeReader : hugeEscapeReader.grammar.Obedient := by
  intro bytes tree _ htree
  obtain ⟨hbytes, htree⟩ := Option.ite_none_right_eq_some.1 htree
  cases hbytes
  cases htree
  have hforms : ∀ s ∈ hugeEscapeTree.subtrees,
      s.form ≠ .binary ∧ s.form ≠ .unary ∧ s.form ≠ .number := by decide
  have hescape : ∀ s ∈ hugeEscapeTree.subtrees, s.type = "escape_sequence" →
      s.label.start = 1 ∧ s.label.stop = 11 := by decide
  constructor
  · intro a s hs hform
    obtain ⟨hbinary, hunary, -⟩ := hforms s (Tree.mem_subtrees_of_at? hs)
    exact absurd hform (not_or.2 ⟨hbinary, hunary⟩)
  · intro a s hs hform
    exact absurd hform (hforms s (Tree.mem_subtrees_of_at? hs)).2.2
  · intro a s hs htype
    obtain ⟨hstart, hstop⟩ := hescape s (Tree.mem_subtrees_of_at? hs) htype
    have htext : (Node.View.ofSource (.ofBytes hugeEscape)).excerpt s.label =
        0x5C :: 0x75 :: 0x7B :: (Text.ofString "110000" ++ [0x7D]) := by
      change (Source.ofBytes hugeEscape).slice s.label.start s.label.stop = _
      rw [hstart, hstop]
      decide
    rw [htext]
    exact .braced (by decide) (by decide)

theorem stops_hugeEscape : Stops hugeEscapeReader hugeEscapeFiles "huge.js" := by
  refine .literal hugeEscape hugeEscapeTree
    (.namedNode "string" 0 12 none [
      .token "'" 0 1, .namedNode "escape_sequence" 1 11 none [], .token "'" 11 12])
    rfl (by decide) rfl nofun ?_ ?_
  · -- The string is the only part of the only part.
    exact .operand List.mem_cons_self (.operand List.mem_cons_self (.root _))
  · exact ⟨.namedNode "escape_sequence" 1 11 none [], List.mem_cons_self, rfl,
      Text.ofString "110000", by decide, by decide, by decide⟩

/-- A file that stops the run and one that is reported on, as arguments of one run, and the second one as
the only argument. -/
theorem run_one_result_per_file_unless_stopped_huge :
    hugeEscapeReader.grammar.Obedient ∧
      (∃ config engine, prepare ["huge.js", "gone.js"] = .ok (config, engine) ∧
        (∃ e, (lintFile hugeEscapeReader hugeEscapeFiles engine "huge.js").2 = .error e) ∧
        (∃ r, (lintFile hugeEscapeReader hugeEscapeFiles engine "gone.js").2 = .ok r ∧
          Reports hugeEscapeReader hugeEscapeFiles "gone.js" r) ∧
        ∃ e, (runOn .utf8 hugeEscapeReader hugeEscapeFiles ["huge.js", "gone.js"]).status =
          .error (.failure (.lint e))) ∧
      ∃ config engine, prepare ["gone.js"] = .ok (config, engine) ∧
        ∃ r, (lintFile hugeEscapeReader hugeEscapeFiles engine "gone.js").2 = .ok r ∧
          (runOn .utf8 hugeEscapeReader hugeEscapeFiles ["gone.js"]).status = .ok (some (statusOf [r])) := by
  have hparse : Arguments.parse ["huge.js", "gone.js"] = .ok { files := ["huge.js", "gone.js"] } := by
    cbv
  have hparseOne : Arguments.parse ["gone.js"] = .ok { files := ["gone.js"] } := by cbv
  have hgone : ¬Stops hugeEscapeReader hugeEscapeFiles "gone.js" := by
    intro hstops
    cases hstops with
    | path e hpath => cases hpath
    | literal bytes tree u hfile => cases hfile
  refine ⟨obedient_hugeEscapeReader, ?_, ?_⟩
  · obtain ⟨engine, hbuild⟩ : ∃ engine,
        (settings { files := ["huge.js", "gone.js"] }).build = .ok engine := ⟨_, rfl⟩
    have hargs := prepare_of_build hparse hbuild
    obtain ⟨hfile, hstopped, -⟩ := run_one_result_per_file_unless_stopped hugeEscapeReader
      obedient_hugeEscapeReader hugeEscapeFiles hargs .utf8
    refine ⟨_, engine, hargs, ?_, ?_, ?_⟩
    · exact ((hfile "huge.js").resolve_right fun h => h.1 stops_hugeEscape).2
    · exact ((hfile "gone.js").resolve_left fun h => hgone h.1).2
    · exact hstopped ⟨_, List.mem_cons_self, stops_hugeEscape⟩
  · obtain ⟨engine, hbuild⟩ : ∃ engine, (settings { files := ["gone.js"] }).build = .ok engine := ⟨_, rfl⟩
    have hargs := prepare_of_build hparseOne hbuild
    obtain ⟨-, -, hdone, htakes⟩ := run_one_result_per_file_unless_stopped hugeEscapeReader
      obedient_hugeEscapeReader hugeEscapeFiles hargs .utf8
    obtain ⟨results, hresults, -, hwritten⟩ := hdone (List.forall_mem_singleton.2 hgone)
    obtain ⟨r, ⟨hr, -⟩, rfl⟩ : ∃ r, ((lintFile hugeEscapeReader hugeEscapeFiles engine "gone.js").2 = .ok r ∧
        Reports hugeEscapeReader hugeEscapeFiles "gone.js" r) ∧ results = [r] := by
      cases hresults with
      | cons hr hnil =>
        cases hnil
        exact ⟨_, hr, rfl⟩
    have hjson : Text.ofString "--text" ∉ [Text.ofString "gone.js"] := by decide
    exact ⟨_, engine, hargs, r, hr, (hwritten (htakes Console.utf8_takesAscii hjson)).1⟩

end CommandLine

end ElementLint
