import ElementLint.CommandLine.Arguments
import ElementLint.Proofs.Attempt
import ElementLint.Proofs.Text.Pieces
import Mathlib.Data.List.Induction

/-!
# Values of options

What the value of an option says, told from the text alone. A list of names is a text that is cut at
every comma, and an assignment is one that is cut at the first equals sign.

Assignments are made one after the other. `Fields.puts` makes several, and a rule has in the end what
the last assignment to it says.
-/

namespace ElementLint

namespace Fields

variable {α : Type}

/-- Give values to names, one after the other. -/
def puts (fields assigned : Fields α) : Fields α :=
  assigned.foldl (fun fields f => fields.put f.1 f.2) fields

/-- A name has the value that was given to it last, if any was. -/
theorem get?_puts (fields assigned : Fields α) (name : Text) :
    get? (puts fields assigned) name = (get? assigned.reverse name).or (get? fields name) := by
  induction assigned using List.reverseRecOn with
  | nil => rfl
  | append_singleton assigned f ih =>
    rw [puts, List.foldl_append, List.foldl_cons, List.foldl_nil, get?_put, ← puts, ih,
      List.reverse_append, List.reverse_singleton, List.singleton_append, get?_cons]
    split <;> rfl

theorem get?_puts_nil (assigned : Fields α) (name : Text) :
    get? (puts [] assigned) name = get? assigned.reverse name := by
  rw [get?_puts, get?_nil, Option.or_none]

end Fields

namespace Arguments

open Attempt

/-- The names in a list: the pieces between its commas, without the white space around them and without
the empty ones. -/
def ListsNames (raw : Text) (names : List Text) : Prop :=
  ∃ pieces, Text.CutInto 0x2C raw pieces ∧ names = (pieces.map Text.strip).filter (· ≠ [])

theorem listsNames_iff {raw : Text} {names : List Text} :
    ListsNames raw names ↔ splitNames raw = names := by
  have hfilter : ∀ ts : List Text, ts.filter (!·.isEmpty) = ts.filter (· ≠ []) := by
    intro ts
    refine List.filter_congr fun t _ => ?_
    cases t <;> rfl
  rw [splitNames, hfilter]
  constructor
  · rintro ⟨pieces, hpieces, rfl⟩
    rw [Text.cutInto_iff.1 hpieces]
  · rintro rfl
    exact ⟨_, Text.cutInto_splitOn 0x2C raw, rfl⟩

/-- A text assigns a value to a rule: the rule stands before its first equals sign and is not blank, and
the value is all that comes after, both without the white space around them. -/
def Assigns (raw rule value : Text) : Prop :=
  ∃ before after, raw = before ++ 0x3D :: after ∧ 0x3D ∉ before ∧
    Text.strip before = rule ∧ rule ≠ [] ∧ Text.strip after = value

theorem splitAssignment_eq_ok_iff {flag raw rule value : Text} :
    splitAssignment flag raw = .ok (rule, value) ↔ Assigns raw rule value := by
  rw [splitAssignment, Assigns]
  split
  · rename_i hcut
    refine iff_of_false nofun ?_
    rintro ⟨before, after, hraw, hbefore, -⟩
    cases hcut.symm.trans (Text.cutAt?_eq_some_iff.2 ⟨hraw, hbefore⟩)
  · rename_i before after hcut
    obtain ⟨hraw, hbefore⟩ := Text.cutAt?_eq_some_iff.1 hcut
    constructor
    · intro h
      split at h
      · cases h
      · rename_i hne
        cases h
        exact ⟨before, after, hraw, hbefore, rfl, fun hnil => hne (by simp [hnil]), rfl⟩
    · rintro ⟨before', after', hraw', hbefore', rfl, hne, rfl⟩
      -- There is one first equals sign.
      cases hcut.symm.trans (Text.cutAt?_eq_some_iff.2 ⟨hraw', hbefore'⟩)
      rw [if_neg fun hnil => hne (List.isEmpty_iff.1 hnil)]

/-- A value of `--rule-option` gives a rule its options, written in JSON. -/
def GivesOptions (raw : Text) (given : Text × Json) : Prop :=
  ∃ value, Assigns raw given.1 value ∧ Json.read value = .ok given.2

/-- The levels that a rule can have. -/
def levels : List Text := ["error", "warn", "off"]

/-- A value of `--severity` gives a rule its level. -/
def GivesSeverity (raw : Text) (given : Text × Text) : Prop :=
  Assigns raw given.1 given.2 ∧ given.2 ∈ levels

theorem isSome_ofName?_iff (level : Text) : (Severity.ofName? level).isSome ↔ level ∈ levels := by
  have hnames : ∀ t, t ∈ levels ↔ ∃ s ∈ Severity.all, s.name = t := by
    intro t
    simp only [levels, Severity.all, List.mem_cons, List.not_mem_nil, or_false, exists_eq_or_imp,
      exists_eq_left, Severity.name]
    tauto
  rw [Severity.ofName?, List.find?_isSome, hnames]
  simp only [beq_iff_eq]

theorem putOptions_eq_ok_iff (options out : Fields Json) (raw : Text) :
    putOptions options raw = .ok out ↔
      ∃ given, GivesOptions raw given ∧ options.put given.1 given.2 = out := by
  rw [putOptions, bind_eq_ok_iff]
  constructor
  · rintro ⟨⟨rule, value⟩, hsplit, h⟩
    dsimp only at h
    split at h
    · rename_i given hread
      cases h
      exact ⟨(rule, given), ⟨value, splitAssignment_eq_ok_iff.1 hsplit, hread⟩, rfl⟩
    · cases h
  · rintro ⟨⟨rule, given⟩, ⟨value, hassigns, hread⟩, rfl⟩
    refine ⟨(rule, value), splitAssignment_eq_ok_iff.2 hassigns, ?_⟩
    simp only [hread]
    rfl

theorem putSeverity_eq_ok_iff (severities out : Fields Text) (raw : Text) :
    putSeverity severities raw = .ok out ↔
      ∃ given, GivesSeverity raw given ∧ severities.put given.1 given.2 = out := by
  rw [putSeverity, bind_eq_ok_iff]
  constructor
  · rintro ⟨⟨rule, level⟩, hsplit, h⟩
    dsimp only at h
    split at h
    · rename_i hlevel
      cases h
      exact ⟨(rule, level), ⟨splitAssignment_eq_ok_iff.1 hsplit, (isSome_ofName?_iff level).1 hlevel⟩,
        rfl⟩
    · cases h
  · rintro ⟨⟨rule, level⟩, ⟨hassigns, hlevel⟩, rfl⟩
    refine ⟨(rule, level), splitAssignment_eq_ok_iff.2 hassigns, ?_⟩
    simp only [(isSome_ofName?_iff level).2 hlevel, if_true]
    rfl

/-- Assignments are made in the order of their values, and all of them or none. -/
theorem foldlM_put_eq_ok_iff {ε α : Type} {put : Fields α → Text → Except ε (Fields α)}
    {Gives : Text → Text × α → Prop}
    (hput : ∀ fields out raw, put fields raw = .ok out ↔
      ∃ given, Gives raw given ∧ fields.put given.1 given.2 = out)
    {values : List Text} {fields out : Fields α} :
    values.foldlM put fields = .ok out ↔
      ∃ assigned, List.Forall₂ Gives values assigned ∧ out = fields.puts assigned := by
  induction values generalizing fields with
  | nil =>
    simp only [List.foldlM_nil, List.forall₂_nil_left_iff, exists_eq_left]
    constructor
    · intro h
      cases h
      rfl
    · rintro rfl
      rfl
  | cons raw values ih =>
    rw [List.foldlM_cons, bind_eq_ok_iff]
    constructor
    · rintro ⟨next, hnext, h⟩
      obtain ⟨given, hgives, rfl⟩ := (hput _ _ _).1 hnext
      obtain ⟨assigned, hassigned, rfl⟩ := ih.1 h
      exact ⟨given :: assigned, .cons hgives hassigned, rfl⟩
    · rintro ⟨_, hall, rfl⟩
      obtain ⟨given, assigned, hgives, hassigned, rfl⟩ := List.forall₂_cons_left_iff.1 hall
      exact ⟨_, (hput _ _ _).2 ⟨given, hgives, rfl⟩, ih.2 ⟨assigned, hassigned, rfl⟩⟩

end Arguments

end ElementLint
