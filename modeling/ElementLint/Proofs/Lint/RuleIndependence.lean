import ElementLint.Lint.Basic
import ElementLint.Proofs.Engine.Run
import ElementLint.Proofs.Report.ItemOrder
import ElementLint.Proofs.Report.Summary
import ElementLint.Proofs.Tree.Address

/-!
# Rules do not disturb each other

The reports of all rules go through one list and are sorted twice, once as diagnostics and once as
items. `filter_ruleItems` says what is left of this for one rule: its own reports, sorted by position.
No other rule has a part in it, and the severity of the rule shows in the severity of its items only.
-/

namespace ElementLint

namespace Item

/-- An item but for its severity. -/
def withoutSeverity (i : Item) : Item := { i with severity := none }

end Item

namespace Lint

open Attempt

/-- What an entry reports at some nodes, by position. -/
def sortedReports (x : Entry) (nodes : List Node) : List Report :=
  (nodes.flatMap x.reports).mergeSort fun r r' => r.position.le r'.position

theorem sort_found (x : Entry) (nodes : List Node) :
    (nodes.flatMap x.found).mergeSort Diagnostic.le = (sortedReports x nodes).map x.diagnostic := by
  have hfound : nodes.flatMap x.found = (nodes.flatMap x.reports).map x.diagnostic := by
    rw [List.map_flatMap]
    rfl
  rw [sortedReports, hfound]
  symm
  apply List.map_mergeSort
  intro r _ r' _
  rfl

theorem filter_found_of_eq {x : Entry} {rule : Text} (h : x.rule.id = .text rule) (n : Node) :
    (x.found n).filter (fun d => d.rule == .text rule) = x.found n := by
  rw [List.filter_eq_self]
  intro d hd
  obtain ⟨r, -, rfl⟩ := List.mem_map.1 hd
  simpa [Entry.diagnostic] using h

theorem filter_found_of_ne {x : Entry} {rule : Text} (h : x.rule.id ≠ .text rule) (n : Node) :
    (x.found n).filter (fun d => d.rule == .text rule) = [] := by
  rw [List.filter_eq_nil_iff]
  intro d hd
  obtain ⟨r, -, rfl⟩ := List.mem_map.1 hd
  simpa [Entry.diagnostic] using h

/-- Of entries with different ids at most one finds something for a rule. -/
theorem filter_flatMap_found {entries : List Entry} {rule : Text}
    (hids : (entries.map fun x => x.rule.id).Nodup) (n : Node) :
    (entries.flatMap fun x => x.found n).filter (fun d => d.rule == .text rule) =
      ((entries.find? fun x => x.rule.id == .text rule).toList.flatMap fun x => x.found n) := by
  induction entries with
  | nil => rfl
  | cons x entries ih =>
    rw [List.map_cons, List.nodup_cons] at hids
    rw [List.flatMap_cons, List.filter_append, ih hids.2]
    by_cases hx : x.rule.id = .text rule
    · have hrest : entries.find? (fun y => y.rule.id == .text rule) = none := by
        rw [List.find?_eq_none]
        intro y hy hid
        apply hids.1
        rw [hx, ← beq_iff_eq.1 hid]
        exact List.mem_map_of_mem hy
      rw [filter_found_of_eq hx, hrest, List.find?_cons_of_pos (by simpa using hx)]
      rfl
    · rw [filter_found_of_ne hx, List.find?_cons_of_neg (by simpa using hx), List.nil_append]

/-- The items of all the rules that are not off, in the order of a report. -/
def ruleItems (e : Engine) (nodes : List Node) : List Item :=
  Item.sort (((nodes.flatMap fun n => e.active.flatMap fun x => x.found n).mergeSort
    Diagnostic.le).map Item.ofDiagnostic)

/-- The items of one rule, when all rules have run: its own reports, sorted by position. -/
theorem filter_ruleItems {e : Engine} {rule : Text}
    (hids : (e.entries.map fun x => x.rule.id).Nodup) (nodes : List Node) :
    (ruleItems e nodes).filter (Item.isOf rule) =
      (e.active.find? fun x => x.rule.id == .text rule).toList.flatMap fun x =>
        (sortedReports x nodes).map fun r => Item.ofDiagnostic (x.diagnostic r) := by
  have hactive : (e.active.map fun x => x.rule.id).Nodup :=
    (List.filter_sublist.map _).nodup hids
  have hof : Item.isOf rule ∘ Item.ofDiagnostic = fun d => d.rule == .text rule := by
    funext d
    rw [Function.comp_apply, Item.isOf]
    exact Option.some_beq_some
  rw [ruleItems, Item.filter_sort, List.filter_map, hof,
    filter_mergeSort Diagnostic.le_trans Diagnostic.le_total, List.filter_flatMap]
  simp only [filter_flatMap_found hactive]
  cases e.active.find? (fun x => x.rule.id == .text rule) with
  | none =>
    have hnone : (nodes.flatMap fun _ => ([] : List Diagnostic)) = [] :=
      List.flatMap_eq_nil_iff.2 fun _ _ => rfl
    simp only [Option.toList_none, List.flatMap_nil, hnone, List.mergeSort_nil, List.map_nil]
    exact List.mergeSort_nil
  | some x =>
    simp only [Option.toList_some, List.flatMap_cons, List.flatMap_nil, List.append_nil]
    rw [sort_found, Item.sort_ofDiagnostic, List.map_map]
    · rfl
    · rw [← sort_found]
      exact List.pairwise_mergeSort Diagnostic.le_trans Diagnostic.le_total _
    · intro a ha b hb
      obtain ⟨r, -, rfl⟩ := List.mem_map.1 ha
      obtain ⟨r', -, rfl⟩ := List.mem_map.1 hb
      rfl

theorem find?_active_eq_some {e : Engine} {x : Entry} {rule : Text}
    (hids : (e.entries.map fun x => x.rule.id).Nodup) (hx : x ∈ e.entries)
    (hrule : x.rule.id = .text rule) (hseverity : x.severity ≠ .off) :
    e.active.find? (fun y => y.rule.id == .text rule) = some x := by
  have hactive : x ∈ e.active := List.mem_filter.2 ⟨hx, by simpa using hseverity⟩
  obtain ⟨y, hy⟩ : ∃ y, e.active.find? (fun y => y.rule.id == .text rule) = some y := by
    rw [← Option.isSome_iff_exists, List.find?_isSome]
    exact ⟨x, hactive, by simpa using hrule⟩
  have hyid : y.rule.id = .text rule := by simpa using List.find?_some hy
  have hyentry : y ∈ e.entries := List.mem_of_mem_filter (List.mem_of_find?_eq_some hy)
  rw [hy, List.inj_on_of_nodup_map hids hyentry hx (hyid.trans hrule.symm)]

theorem find?_active_eq_none {e : Engine} {rule : Text}
    (h : ∀ x ∈ e.entries, x.rule.id = .text rule → x.severity = .off) :
    e.active.find? (fun y => y.rule.id == .text rule) = none := by
  rw [List.find?_eq_none]
  intro y hy hid
  obtain ⟨hentry, hactive⟩ := List.mem_filter.1 hy
  rw [h y hentry (by simpa using hid)] at hactive
  cases hactive

/-- Entries with one id have one rule. -/
theorem rule_eq_of_build {s₁ s₂ : Settings} {e₁ e₂ : Engine} (h₁ : s₁.build = .ok e₁)
    (h₂ : s₂.build = .ok e₂) {x₁ x₂ : Entry} (hx₁ : x₁ ∈ e₁.entries) (hx₂ : x₂ ∈ e₂.entries)
    (hid : x₁.rule.id = x₂.rule.id) : x₁.rule = x₂.rule := by
  obtain ⟨name₁, hr₁⟩ := Settings.mem_registry_of_build h₁ hx₁
  obtain ⟨name₂, hr₂⟩ := Settings.mem_registry_of_build h₂ hx₂
  have hname : name₁ = name₂ := by
    rw [id_of_mem_registry hr₁, id_of_mem_registry hr₂] at hid
    exact Json.text.inj hid
  have hpair := List.inj_on_of_nodup_map nodup_registry hr₁ hr₂ hname
  exact congrArg Prod.snd hpair

theorem sortedReports_congr {x₁ x₂ : Entry} (hrule : x₁.rule = x₂.rule)
    (hoptions : x₁.options = x₂.options) (nodes : List Node) :
    sortedReports x₁ nodes = sortedReports x₂ nodes := by
  have hreports : x₁.reports = x₂.reports := by
    funext n
    rw [Entry.reports, Entry.reports, hrule, hoptions]
  rw [sortedReports, sortedReports, hreports]

theorem withoutSeverity_diagnostic {x₁ x₂ : Entry} (hrule : x₁.rule = x₂.rule) (r : Report) :
    (Item.ofDiagnostic (x₁.diagnostic r)).withoutSeverity =
      (Item.ofDiagnostic (x₂.diagnostic r)).withoutSeverity := by
  simp only [Item.withoutSeverity, Item.ofDiagnostic, Entry.diagnostic, hrule]

theorem severity_diagnostic (x : Entry) (r : Report) :
    (Item.ofDiagnostic (x.diagnostic r)).severity =
      some (.text (if x.severity = .warn then "warning" else "error")) := by
  simp only [Item.ofDiagnostic, Entry.diagnostic]
  cases x.severity <;> rfl

/-- There is a path to a file that is read. -/
theorem exists_realPath_of_load {reader : Reader} {files : FileSystem} {file : Text} {program : Program}
    (hload : Program.ofFile reader files file = .ok program) :
    ∃ path, files.realPath file = .ok path := by
  apply files.exists_realPath
  intro hmissing
  simp [Program.ofFile, hmissing] at hload

/-- The result for a program whose items can be made. -/
theorem lintFile_of_load {reader : Reader} {files : FileSystem} {file : Text} {program : Program}
    (hload : Program.ofFile reader files file = .ok program) {e : Engine} {items : List Item}
    (hitems : itemsOf e (program.root.walk 0) program.problems = .ok items) :
    ∃ path, files.realPath file = .ok path ∧
      (lintFile reader files e file).2 = .ok { file, path, error := none, items } := by
  obtain ⟨path, hpath⟩ := exists_realPath_of_load hload
  refine ⟨path, hpath, ?_⟩
  simp only [lintFile, hpath, hload, hitems]

/-- A program without problems: linting succeeds, and its items are those of the rules. -/
theorem lintFile_of_clean {reader : Reader} {files : FileSystem} {file : Text} {program : Program}
    (hload : Program.ofFile reader files file = .ok program) (hclean : program.problems = [])
    {s : Settings} {e : Engine} (hbuild : s.build = .ok e) :
    ∃ r : LintResult, (lintFile reader files e file).2 = .ok r ∧
      r.items = ruleItems e ((program.root.walk 0).map Visit.node) := by
  have hitems : itemsOf e (program.root.walk 0) program.problems =
      .ok (ruleItems e ((program.root.walk 0).map Visit.node)) := by
    rw [hclean, itemsOf, firstLine, Engine.run_eq_ok (Settings.steady_of_build hbuild)]
    rfl
  obtain ⟨path, -, hlint⟩ := lintFile_of_load hload hitems
  exact ⟨_, hlint, rfl⟩

/-- A rule that runs in two engines with the same options gives the same items in both, in the same
order and up to the severity, whatever the other rules do; and a rule that does not run gives none. -/
theorem lintFile_items_independent (reader : Reader) (files : FileSystem) (file : Text)
    (program : Program) (hload : Program.ofFile reader files file = .ok program)
    (hclean : program.problems = []) (s₁ s₂ : Settings) (e₁ e₂ : Engine)
    (h₁ : s₁.build = .ok e₁) (h₂ : s₂.build = .ok e₂) :
    ∃ r₁ r₂ : LintResult,
      (lintFile reader files e₁ file).2 = .ok r₁ ∧ (lintFile reader files e₂ file).2 = .ok r₂ ∧
      (∀ x₁ ∈ e₁.entries, ∀ x₂ ∈ e₂.entries, ∀ rule : Text,
        x₁.rule.id = .text rule → x₂.rule.id = .text rule → x₁.options = x₂.options →
        x₁.severity ≠ .off → x₂.severity ≠ .off →
        (r₁.items.filter (Item.isOf rule)).map Item.withoutSeverity =
            (r₂.items.filter (Item.isOf rule)).map Item.withoutSeverity ∧
          (∀ i ∈ r₁.items.filter (Item.isOf rule),
            i.severity = some (.text (if x₁.severity = .warn then "warning" else "error"))) ∧
          (∀ i ∈ r₂.items.filter (Item.isOf rule),
            i.severity = some (.text (if x₂.severity = .warn then "warning" else "error")))) ∧
      (∀ rule : Text, (∀ x ∈ e₁.entries, x.rule.id = .text rule → x.severity = .off) →
        r₁.items.filter (Item.isOf rule) = []) := by
  obtain ⟨r₁, hr₁, hitems₁⟩ := lintFile_of_clean hload hclean h₁
  obtain ⟨r₂, hr₂, hitems₂⟩ := lintFile_of_clean hload hclean h₂
  have hids₁ := Settings.nodup_ids_of_build h₁
  have hids₂ := Settings.nodup_ids_of_build h₂
  refine ⟨r₁, r₂, hr₁, hr₂, ?_, ?_⟩
  · intro x₁ hx₁ x₂ hx₂ rule hrule₁ hrule₂ hoptions hseverity₁ hseverity₂
    rw [hitems₁, hitems₂, filter_ruleItems hids₁, filter_ruleItems hids₂,
      find?_active_eq_some hids₁ hx₁ hrule₁ hseverity₁, find?_active_eq_some hids₂ hx₂ hrule₂ hseverity₂]
    have hrule := rule_eq_of_build h₁ h₂ hx₁ hx₂ (hrule₁.trans hrule₂.symm)
    simp only [Option.toList_some, List.flatMap_cons, List.flatMap_nil, List.append_nil]
    rw [sortedReports_congr hrule hoptions]
    refine ⟨?_, ?_, ?_⟩
    · rw [List.map_map, List.map_map]
      exact List.map_congr_left fun r _ => withoutSeverity_diagnostic hrule r
    · intro i hi
      obtain ⟨r, -, rfl⟩ := List.mem_map.1 hi
      exact severity_diagnostic x₁ r
    · intro i hi
      obtain ⟨r, -, rfl⟩ := List.mem_map.1 hi
      exact severity_diagnostic x₂ r
  · intro rule hoff
    rw [hitems₁, filter_ruleItems hids₁, find?_active_eq_none hoff]
    rfl

/-- The tree of `customElements.define('a')`. -/
def defineTree : Tree :=
  Tree.namedNode "program" 0 26 none [Tree.namedNode "expression_statement" 0 26 none [
    Tree.namedNode "call_expression" 0 26 none [
      Tree.namedNode "member_expression" 0 21 (some "function") [
        Tree.namedNode "identifier" 0 14 (some "object") [],
        Tree.namedNode "property_identifier" 15 21 (some "property") []],
      Tree.namedNode "arguments" 21 26 (some "arguments") [
        Tree.namedNode "string" 22 25 none [Tree.namedNode "string_fragment" 23 24 none []]]]]]

/-- Every text is read as that one. -/
def defineReader : Reader where
  grammar _ := some defineTree

def defineFiles : FileSystem where
  lookup _ := .file (Utf8.encode "customElements.define('a')")
  realPath path := .ok path
  exists_realPath _ _ := ⟨_, rfl⟩

def defineProgram : Program where
  root := .program ⟨1, 1⟩ [.exprStmt ⟨1, 1⟩ (.call ⟨1, 1⟩
    (some (.member ⟨1, 1⟩ (some (.identifier ⟨1, 1⟩ "customElements"))
      (some (.identifier ⟨1, 16⟩ "define")) false false))
    [.literal ⟨1, 23⟩ (.text "a") "'a'"] false)]
  problems := []

/-- One rule is off, and the other one only warns. -/
def warnSettings : Settings where
  severities := .object [("guard-super-call", .text "off"), ("no-invalid-element-name", .text "warn")]

/-- A rule alone and as a warning, and the same rule as an error together with the other one. -/
theorem lintFile_items_independent_define :
    Program.ofFile defineReader defineFiles "a.js" = .ok defineProgram ∧
      defineProgram.problems = [] ∧
      ∃ e₁ e₂ : Engine,
        Settings.build {} = .ok e₁ ∧ warnSettings.build = .ok e₂ ∧
        ∃ r₁ r₂ : LintResult,
          (lintFile defineReader defineFiles e₁ "a.js").2 = .ok r₁ ∧
          (lintFile defineReader defineFiles e₂ "a.js").2 = .ok r₂ ∧
          (r₁.items.filter (Item.isOf "no-invalid-element-name")).map Item.withoutSeverity =
            (r₂.items.filter (Item.isOf "no-invalid-element-name")).map Item.withoutSeverity := by
  refine ⟨rfl, rfl, _, _, rfl, rfl, ?_⟩
  obtain ⟨r₁, r₂, hr₁, hr₂, hsame, -⟩ := lintFile_items_independent defineReader
    defineFiles "a.js" defineProgram rfl rfl {} warnSettings _ _ rfl rfl
  refine ⟨r₁, r₂, hr₁, hr₂, ?_⟩
  exact (hsame _ List.mem_cons_self _ List.mem_cons_self _ rfl rfl rfl (by decide) (by decide)).1

end Lint

end ElementLint
