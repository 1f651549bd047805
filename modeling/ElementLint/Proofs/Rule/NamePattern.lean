import Mathlib.Computability.RegularExpressions
import ElementLint.Rule.ElementName

/-!
# The pattern of element names

`ElementName.pattern` is the regular expression of element names: a small letter, name characters, a hyphen,
and name characters again. Since the hyphen is a name character itself, a name may be cut in several
ways; the texts that match are those with a hyphen anywhere after the first character
(`mem_pattern_iff`). `IsName` says the same as the production of the HTML standard does, with its ranges
written out. The main statement says that the three agree.
-/

namespace ElementLint

namespace ElementName

def oneOf (ranges : List (Nat × Nat)) : RegularExpression Nat :=
  ((ranges.flatMap fun r => List.range' r.1 (r.2 + 1 - r.1)).map RegularExpression.char).sum

/-- A small letter, name characters, a hyphen, name characters. -/
def pattern : RegularExpression Nat :=
  oneOf [(0x61, 0x7A)] * (oneOf nameRanges).star * .char hyphen * (oneOf nameRanges).star

/-- The characters of a name: `PCENChar` of the HTML standard. -/
def IsPcenChar (c : Nat) : Prop :=
  c = 0x2D ∨ c = 0x2E ∨ (0x30 ≤ c ∧ c ≤ 0x39) ∨ c = 0x5F ∨ (0x61 ≤ c ∧ c ≤ 0x7A) ∨ c = 0xB7 ∨
    (0xC0 ≤ c ∧ c ≤ 0xD6) ∨ (0xD8 ≤ c ∧ c ≤ 0xF6) ∨ (0xF8 ≤ c ∧ c ≤ 0x37D) ∨
    (0x37F ≤ c ∧ c ≤ 0x1FFF) ∨ (0x200C ≤ c ∧ c ≤ 0x200D) ∨ (0x203F ≤ c ∧ c ≤ 0x2040) ∨
    (0x2070 ≤ c ∧ c ≤ 0x218F) ∨ (0x2C00 ≤ c ∧ c ≤ 0x2FEF) ∨ (0x3001 ≤ c ∧ c ≤ 0xD7FF) ∨
    (0xF900 ≤ c ∧ c ≤ 0xFDCF) ∨ (0xFDF0 ≤ c ∧ c ≤ 0xFFFD) ∨ (0x10000 ≤ c ∧ c ≤ 0xEFFFF)

/-- The names of the production: a small letter, then name characters with a hyphen among them. -/
inductive IsName : Text → Prop
  | mk {first : Nat} {rest : Text} (hfirst : 0x61 ≤ first ∧ first ≤ 0x7A)
      (hrest : ∀ c ∈ rest, IsPcenChar c) (hhyphen : 0x2D ∈ rest) : IsName (first :: rest)

/-- The names of elements of other vocabularies. -/
def IsReserved (name : Text) : Prop :=
  name = Text.ofString "annotation-xml" ∨ name = Text.ofString "color-profile" ∨
    name = Text.ofString "font-face" ∨ name = Text.ofString "font-face-src" ∨
    name = Text.ofString "font-face-uri" ∨ name = Text.ofString "font-face-format" ∨
    name = Text.ofString "font-face-name" ∨ name = Text.ofString "missing-glyph"

/-! ## What the pattern matches -/

theorem mem_oneOf_iff {ranges : List (Nat × Nat)} {w : Text} :
    w ∈ (oneOf ranges).matches' ↔ ∃ c, (∃ r ∈ ranges, r.1 ≤ c ∧ c ≤ r.2) ∧ w = [c] := by
  have hsum (codes : List Nat) :
      w ∈ (codes.map RegularExpression.char).sum.matches' ↔ ∃ c ∈ codes, w = [c] := by
    induction codes with
    | nil => simp [Language.notMem_zero]
    | cons c codes ih =>
      rw [List.map_cons, List.sum_cons, RegularExpression.matches'_add, Language.mem_add, ih,
        RegularExpression.matches'_char, List.exists_mem_cons_iff]
      rfl
  rw [oneOf, hsum]
  apply exists_congr
  intro c
  rw [List.mem_flatMap]
  apply and_congr_left'
  apply exists_congr
  intro r
  rw [List.mem_range'_1]
  apply and_congr_right'
  omega

/-- Any number of characters of a class. -/
theorem mem_star_oneOf_iff {ranges : List (Nat × Nat)} {w : Text} :
    w ∈ (oneOf ranges).star.matches' ↔ ∀ c ∈ w, ∃ r ∈ ranges, r.1 ≤ c ∧ c ≤ r.2 := by
  rw [RegularExpression.matches'_star, Language.mem_kstar]
  constructor
  · rintro ⟨parts, rfl, hparts⟩ c hc
    obtain ⟨part, hpart, hc⟩ := List.mem_flatten.1 hc
    obtain ⟨c', hrange, rfl⟩ := mem_oneOf_iff.1 (hparts part hpart)
    exact List.mem_singleton.1 hc ▸ hrange
  · intro h
    refine ⟨w.map fun c => [c], by simp [← List.flatMap_def], ?_⟩
    rw [List.forall_mem_map]
    exact fun c hc => mem_oneOf_iff.2 ⟨c, h c hc, rfl⟩

theorem isNameChar_iff_exists_range {c : Nat} :
    isNameChar c = true ↔ ∃ r ∈ nameRanges, r.1 ≤ c ∧ c ≤ r.2 := by
  simp [isNameChar]

theorem isNameChar_iff {c : Nat} : isNameChar c = true ↔ IsPcenChar c := by
  simp only [isNameChar, nameRanges, IsPcenChar, List.any_cons, List.any_nil, Bool.or_false,
    Bool.or_eq_true, Bool.and_eq_true, decide_eq_true_eq]
  omega

/-- A text matches if it starts with a small letter and goes on with name characters, one of which is a
hyphen. -/
theorem mem_pattern_iff {w : Text} :
    w ∈ pattern.matches' ↔ ∃ first rest, w = first :: rest ∧ isFirstChar first = true ∧
      (∀ c ∈ rest, isNameChar c = true) ∧ hyphen ∈ rest := by
  have hfirst {c : Nat} :
      (∃ r ∈ [(0x61, 0x7A)], r.1 ≤ c ∧ c ≤ r.2) ↔ isFirstChar c = true := by
    simp [isFirstChar]
  have hhyphen : isNameChar hyphen = true := by decide
  simp only [pattern, RegularExpression.matches'_mul, Language.mem_mul, mem_star_oneOf_iff,
    ← isNameChar_iff_exists_range]
  constructor
  · rintro ⟨_, ⟨_, ⟨start, hstart, middle, hmiddle, rfl⟩, _, rfl, rfl⟩, last, hlast, rfl⟩
    obtain ⟨c, hc, rfl⟩ := mem_oneOf_iff.1 hstart
    refine ⟨c, middle ++ hyphen :: last, by simp, hfirst.1 hc, ?_, by simp⟩
    simp only [List.forall_mem_append, List.forall_mem_cons]
    exact ⟨hmiddle, hhyphen, hlast⟩
  · rintro ⟨c, rest, rfl, hc, hrest, hmem⟩
    -- Any hyphen will do as the one of the pattern: the others are name characters.
    obtain ⟨middle, last, rfl⟩ := List.append_of_mem hmem
    obtain ⟨hmiddle, hlast⟩ := List.forall_mem_append.1 hrest
    exact ⟨[c] ++ middle ++ [hyphen],
      ⟨[c] ++ middle, ⟨[c], mem_oneOf_iff.2 ⟨c, hfirst.2 hc, rfl⟩, middle, hmiddle, rfl⟩, [hyphen],
        rfl, rfl⟩,
      last, (List.forall_mem_cons.1 hlast).2, by simp⟩

theorem isPotential_iff {w : Text} :
    isPotential w = true ↔ ∃ first rest, w = first :: rest ∧ isFirstChar first = true ∧
      (∀ c ∈ rest, isNameChar c = true) ∧ hyphen ∈ rest := by
  cases w with
  | nil => simp [isPotential]
  | cons first rest => simp [isPotential, and_assoc]

theorem isName_iff {w : Text} :
    IsName w ↔ ∃ first rest, w = first :: rest ∧ isFirstChar first = true ∧
      (∀ c ∈ rest, isNameChar c = true) ∧ hyphen ∈ rest := by
  simp only [isNameChar_iff, isFirstChar, Bool.and_eq_true, decide_eq_true_eq]
  constructor
  · rintro ⟨hfirst, hrest, hhyphen⟩
    exact ⟨_, _, rfl, hfirst, hrest, hhyphen⟩
  · rintro ⟨first, rest, rfl, hfirst, hrest, hhyphen⟩
    exact ⟨hfirst, hrest, hhyphen⟩

theorem mem_reserved_iff {w : Text} : w ∈ reserved ↔ IsReserved w := by
  simp [reserved, IsReserved]

/-- The pattern of names matches the names of the production, which are the texts that pass the test of the
form; and an element name is such a name that is not reserved. -/
theorem pattern_matches_names (w : Text) :
    (w ∈ pattern.matches' ↔ IsName w) ∧ (isPotential w = true ↔ w ∈ pattern.matches') ∧
      (isValid w = true ↔ IsName w ∧ ¬IsReserved w) := by
  rw [mem_pattern_iff, isPotential_iff, isName_iff]
  refine ⟨Iff.rfl, Iff.rfl, ?_⟩
  rw [isValid, Bool.and_eq_true, isPotential_iff, ← mem_reserved_iff]
  simp

end ElementName

end ElementLint
