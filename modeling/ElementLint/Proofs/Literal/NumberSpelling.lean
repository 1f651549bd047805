import ElementLint.Literal.Value
import ElementLint.Proofs.Attempt
import ElementLint.Proofs.Number.Reading

/-!
# Spellings of number literals

`LiteralValue.Spelled` lists the spellings of a number literal: a whole number, with the marker of its
base or in decimal digits, and with or without the letter `n` behind it, or a fraction, an exponent or
both. Single underscores may stand between digits. Three lemmas say what becomes of them:
`ofNumber_marked`, `ofNumber_whole` and `succeeds_ofNumber_of_fractional`. The main statement puts them
together: only a number in base ten with more digits than are converted has no value.
-/

namespace ElementLint

open Attempt Numeral

namespace LiteralValue

/-! ## Runs of digits -/

/-- Digits of a base with single underscores between them. -/
inductive DigitRun (base : Nat) : Text → Prop
  | one {c : Nat} (hc : isDigitOf base c = true) : DigitRun base [c]
  | cons {c : Nat} {run : Text} (hc : isDigitOf base c = true) (h : DigitRun base run) :
      DigitRun base (c :: run)
  | separated {c : Nat} {run : Text} (hc : isDigitOf base c = true) (h : DigitRun base run) :
      DigitRun base (c :: separator :: run)

def digitsOf (run : Text) : Text := run.filter (· != separator)

theorem mem_digitsOf {run : Text} {c : Nat} : c ∈ digitsOf run ↔ c ∈ run ∧ c ≠ separator := by
  simp [digitsOf]

theorem DigitRun.isDigitOf_of_mem {base c : Nat} {run : Text} (h : DigitRun base run) (hc : c ∈ run) :
    c = separator ∨ isDigitOf base c = true := by
  induction h with
  | one hd =>
    cases List.mem_singleton.1 hc
    exact .inr hd
  | cons hd _ ih =>
    rcases List.mem_cons.1 hc with rfl | hc
    · exact .inr hd
    · exact ih hc
  | separated hd _ ih =>
    rcases List.mem_cons.1 hc with rfl | hc
    · exact .inr hd
    · rcases List.mem_cons.1 hc with rfl | hc
      · exact .inl rfl
      · exact ih hc

theorem DigitRun.isDigitOf_digitsOf {base c : Nat} {run : Text} (h : DigitRun base run)
    (hc : c ∈ digitsOf run) : isDigitOf base c = true := by
  obtain ⟨hmem, hne⟩ := mem_digitsOf.1 hc
  exact (h.isDigitOf_of_mem hmem).resolve_left hne

theorem DigitRun.digitsOf_ne_nil {base : Nat} (hbase : base ≤ 16) {run : Text} (h : DigitRun base run) :
    digitsOf run ≠ [] := by
  obtain ⟨c, hmem, hc⟩ : ∃ c ∈ run, isDigitOf base c = true := by
    cases h with
    | one hc => exact ⟨_, List.mem_cons_self, hc⟩
    | cons hc _ => exact ⟨_, List.mem_cons_self, hc⟩
    | separated hc _ => exact ⟨_, List.mem_cons_self, hc⟩
  have hne : c ≠ separator := by
    rintro rfl
    have := range_of_isDigitOf hbase hc
    rw [separator] at this
    omega
  exact List.ne_nil_of_mem (mem_digitsOf.2 ⟨hmem, hne⟩)

/-! ## Spellings -/

def bigMark (big : Bool) : Text := if big then [0x6E] else []

/-- The exponent of a number. -/
inductive Exponent : Text → Prop
  | mk {letter : Nat} {sign run : Text} (hletter : letter = 0x65 ∨ letter = 0x45)
      (hsign : sign = [] ∨ sign = [0x2B] ∨ sign = [0x2D]) (h : DigitRun 10 run) :
      Exponent (letter :: (sign ++ run))

/-- The spellings of a number literal. -/
inductive Spelled : Text → Prop
  | marked {base small letter : Nat} {run : Text} (big : Bool) (hsmall : marker? base = some small)
      (hletter : letter = small ∨ letter + 32 = small) (h : DigitRun base run) :
      Spelled (0x30 :: letter :: (run ++ bigMark big))
  | whole {run : Text} (big : Bool) (h : DigitRun 10 run) : Spelled (run ++ bigMark big)
  | fraction {run part exponent : Text} (hrun : run = [] ∨ DigitRun 10 run)
      (hpart : part = [] ∨ DigitRun 10 part) (hne : run ≠ [] ∨ part ≠ [])
      (hexponent : exponent = [] ∨ Exponent exponent) : Spelled (run ++ 0x2E :: (part ++ exponent))
  | scaled {run exponent : Text} (h : DigitRun 10 run) (hexponent : Exponent exponent) :
      Spelled (run ++ exponent)

/-- A number in base ten with more digits than are converted. -/
def Oversized (t : Text) : Prop :=
  ∃ (run : Text) (big : Bool), t = run ++ bigMark big ∧ DigitRun 10 run ∧
    digitsBase (digitsOf run) = 10 ∧ maxDigits < (digitsOf run).length

theorem normalNumber_eq {t core : Text} (big : Bool) (ht : digitsOf t = core ++ bigMark big)
    (hlast : 0x6E ∉ core) : normalNumber t = Text.lower core := by
  have hnone : core.getLast? ≠ some 0x6E := fun h => hlast (List.mem_of_getLast? h)
  rw [digitsOf] at ht
  rw [normalNumber, ht]
  cases big with
  | false => simp [bigMark, hnone]
  | true => simp [bigMark]

theorem digitsOf_append (t u : Text) : digitsOf (t ++ u) = digitsOf t ++ digitsOf u :=
  List.filter_append t u

theorem digitsOf_bigMark (big : Bool) : digitsOf (bigMark big) = bigMark big := by
  cases big <;> rfl

theorem markedBase?_eq_none {t : Text} (h : ∀ c ∈ t, c ≠ 0x78 ∧ c ≠ 0x6F ∧ c ≠ 0x62) :
    markedBase? t = none := by
  rw [markedBase?.eq_def]
  split
  · exact absurd rfl (h 0x78 (by simp)).1
  · exact absurd rfl (h 0x6F (by simp)).2.1
  · exact absurd rfl (h 0x62 (by simp)).2.2
  · rfl

/-! ## Whole numbers -/

theorem letter_of_marker {base small letter : Nat} (hsmall : marker? base = some small)
    (hletter : letter = small ∨ letter + 32 = small) :
    base ≤ 16 ∧ Text.lowerAscii letter = small ∧ letter < 0x80 ∧ isDigitOf 10 letter = false ∧
      letter ≠ separator ∧ letter ≠ 0x6E := by
  rw [marker?.eq_def] at hsmall
  split at hsmall <;> cases hsmall
  all_goals
    rcases hletter with rfl | hletter
    · decide
    · cases Nat.eq_sub_of_add_eq hletter
      decide

theorem markedBase?_marker {base small : Nat} (hsmall : marker? base = some small) (t : Text) :
    markedBase? (0x30 :: small :: t) = some base := by
  rw [marker?.eq_def] at hsmall
  split at hsmall <;> cases hsmall <;> rfl

theorem digit_facts {base c : Nat} (hbase : base ≤ 16) (h : isDigitOf base c = true) :
    c < 0x80 ∧ c ≠ 0x6E := by
  have := range_of_isDigitOf hbase h
  omega

/-- A number behind the marker of its base has the value of its digits. -/
theorem ofNumber_marked {base small letter : Nat} {run : Text} (big : Bool)
    (hsmall : marker? base = some small) (hletter : letter = small ∨ letter + 32 = small)
    (h : DigitRun base run) :
    ofNumber (0x30 :: letter :: (run ++ bigMark big)) = .ok (.int (value base (digitsOf run))) := by
  obtain ⟨hbase, hlower, hascii, -, hsep, hn⟩ := letter_of_marker hsmall hletter
  have hdigits : ∀ c ∈ digitsOf run, isDigitOf base c = true := fun c hc => h.isDigitOf_digitsOf hc
  have hcore : digitsOf (0x30 :: letter :: (run ++ bigMark big)) =
      (0x30 :: letter :: digitsOf run) ++ bigMark big := by
    rw [digitsOf, List.filter_cons_of_pos (by decide), List.filter_cons_of_pos (by simpa using hsep),
      ← digitsOf, digitsOf_append, digitsOf_bigMark, List.cons_append, List.cons_append]
  have hbig : 0x6E ∉ 0x30 :: letter :: digitsOf run := by
    simp only [List.mem_cons, not_or]
    refine ⟨by decide, hn.symm, fun hmem => ?_⟩
    exact (digit_facts hbase (hdigits _ hmem)).2 rfl
  have hnormal : normalNumber (0x30 :: letter :: (run ++ bigMark big)) =
      0x30 :: small :: (digitsOf run).map Text.lowerAscii := by
    rw [normalNumber_eq big hcore hbig, Text.lower_eq_map, List.map_cons, List.map_cons, hlower]
    · rfl
    · simp only [List.forall_mem_cons]
      exact ⟨by decide, hascii, fun c hc => (digit_facts hbase (hdigits c hc)).1⟩
  have hsmalls : ∀ c ∈ (digitsOf run).map Text.lowerAscii, isDigitOf base c = true := by
    intro c hc
    obtain ⟨d, hd, rfl⟩ := List.mem_map.1 hc
    rw [isDigitOf, isDigitOf_lowerAscii hbase (hdigits d hd), ← isDigitOf]
    exact hdigits d hd
  have hne : (digitsOf run).map Text.lowerAscii ≠ [] := by
    simpa using h.digitsOf_ne_nil hbase
  rw [ofNumber, hnormal, markedBase?_marker hsmall]
  dsimp only
  rw [read_marked hbase hsmalls hsmall hne, value_map_lowerAscii hbase hdigits]
  rfl

theorem digitsBase_eq (digits : Text) : digitsBase digits = 8 ∨ digitsBase digits = 10 := by
  rw [digitsBase]
  split
  · exact .inl rfl
  · exact .inr rfl

theorem isDigitOf_digitsBase {digits : Text} (h : ∀ c ∈ digits, isDigitOf 10 c = true) {c : Nat}
    (hc : c ∈ digits) : isDigitOf (digitsBase digits) c = true := by
  rw [digitsBase]
  split
  · rename_i hoctal
    have hrange : 0x30 ≤ c ∧ c ≤ 0x37 := by simpa using List.all_eq_true.1 hoctal.2.2 c hc
    rw [isDigitOf, digit?, if_pos (by omega)]
    simp only [decide_eq_true_eq]
    omega
  · exact h c hc

theorem normalNumber_whole {run : Text} (big : Bool) (h : DigitRun 10 run) :
    normalNumber (run ++ bigMark big) = digitsOf run := by
  have hdigits : ∀ c ∈ digitsOf run, isDigitOf 10 c = true := fun c hc => h.isDigitOf_digitsOf hc
  have hcore : digitsOf (run ++ bigMark big) = digitsOf run ++ bigMark big := by
    rw [digitsOf_append, digitsOf_bigMark]
  have hlower : ∀ c ∈ digitsOf run, Text.lowerAscii c = id c := by
    intro c hc
    have := range_of_decimal (Nat.le_refl 10) (hdigits c hc)
    rw [Text.lowerAscii, if_neg (by omega), id]
  rw [normalNumber_eq big hcore, Text.lower_eq_map, List.map_congr_left hlower, List.map_id]
  · exact fun c hc => (digit_facts (by decide) (hdigits c hc)).1
  · exact fun hmem => (digit_facts (by decide) (hdigits _ hmem)).2 rfl

/-- A number in decimal digits has their value, in base eight or ten, unless the base is ten and there
are too many of them. -/
theorem ofNumber_whole {run : Text} (big : Bool) (h : DigitRun 10 run) :
    ofNumber (run ++ bigMark big) =
      if digitsBase (digitsOf run) = 10 ∧ maxDigits < (digitsOf run).length then
        .error (.tooLong (digitsOf run).length)
      else .ok (.int (value (digitsBase (digitsOf run)) (digitsOf run))) := by
  have hdigits : ∀ c ∈ digitsOf run, isDigitOf 10 c = true := fun c hc => h.isDigitOf_digitsOf hc
  have hne := h.digitsOf_ne_nil (by decide)
  have hnormal := normalNumber_whole big h
  have hunmarked : markedBase? (digitsOf run) = none := by
    apply markedBase?_eq_none
    intro c hc
    have := range_of_decimal (Nat.le_refl 10) (hdigits c hc)
    omega
  have hall : (!(digitsOf run).isEmpty && (digitsOf run).all Text.isDigit) = true := by
    rw [Bool.and_eq_true, List.all_eq_true]
    exact ⟨by simpa using hne, fun c hc => isDigit_of_isDigitOf (Nat.le_refl 10) (hdigits c hc)⟩
  have hbase : digitsBase (digitsOf run) ≤ 16 := by
    rcases digitsBase_eq (digitsOf run) with h | h <;> omega
  have hmarker : marker? (digitsBase (digitsOf run)) = none ↔ digitsBase (digitsOf run) = 10 := by
    rcases digitsBase_eq (digitsOf run) with h | h <;> rw [h] <;> decide
  rw [ofNumber, hnormal, hunmarked]
  dsimp only
  rw [if_pos hall, read_digits hbase (fun c hc => isDigitOf_digitsBase hdigits hc) hne]
  simp only [hmarker]
  split
  · rfl
  · rfl

/-! ## Fractions and exponents -/

/-- What may stand in a number with a fraction or an exponent. -/
def Fractional (t : Text) : Prop :=
  (∀ c ∈ t, c = separator ∨ isDigitOf 10 c = true ∨ c ∈ [0x2E, 0x65, 0x45, 0x2B, 0x2D]) ∧
    ∃ c ∈ t, c ∈ [0x2E, 0x65, 0x45]

/-- Whether or not a fraction can be read, it has a value. -/
theorem succeeds_ofNumber_of_fractional {t : Text} (h : Fractional t) : Succeeds (ofNumber t) := by
  obtain ⟨hall, m, hmem, hm⟩ := h
  have hchars : ∀ c ∈ digitsOf t, c < 0x80 ∧ c ≠ 0x6E ∧ Text.lowerAscii c ∉ [0x78, 0x6F, 0x62] := by
    intro c hc
    obtain ⟨hc, hsep⟩ := mem_digitsOf.1 hc
    rcases (hall c hc).resolve_left hsep with hdigit | hmark
    · have := range_of_decimal (Nat.le_refl 10) hdigit
      simp only [Text.lowerAscii, List.mem_cons, List.not_mem_nil, or_false, not_or]
      split <;> omega
    · have hmarks : ∀ c ∈ [0x2E, 0x65, 0x45, 0x2B, 0x2D],
          c < 0x80 ∧ c ≠ 0x6E ∧ Text.lowerAscii c ∉ [0x78, 0x6F, 0x62] := by decide
      exact hmarks c hmark
  have hnormal : normalNumber t = (digitsOf t).map Text.lowerAscii := by
    rw [normalNumber_eq false, Text.lower_eq_map]
    · exact fun c hc => (hchars c hc).1
    · exact (List.append_nil _).symm
    · exact fun hmem => (hchars _ hmem).2.1 rfl
  have hunmarked : markedBase? (normalNumber t) = none := by
    rw [hnormal]
    apply markedBase?_eq_none
    intro c hc
    obtain ⟨d, hd, rfl⟩ := List.mem_map.1 hc
    simpa using (hchars d hd).2.2
  have hmark : Text.lowerAscii m ∈ normalNumber t ∧ Text.isDigit (Text.lowerAscii m) = false := by
    have hmarks : ∀ c ∈ [0x2E, 0x65, 0x45],
        c ≠ separator ∧ Text.isDigit (Text.lowerAscii c) = false := by decide
    obtain ⟨hsep, hdigit⟩ := hmarks m hm
    rw [hnormal]
    exact ⟨List.mem_map_of_mem (mem_digitsOf.2 ⟨hmem, hsep⟩), hdigit⟩
  have hdigits : (!(normalNumber t).isEmpty && (normalNumber t).all Text.isDigit) = false := by
    rw [Bool.and_eq_false_iff, List.all_eq_false]
    exact .inr ⟨_, hmark.1, by rw [hmark.2]; decide⟩
  rw [ofNumber, hunmarked]
  dsimp only
  rw [hdigits, if_neg (by decide)]
  split
  · exact succeeds_ok _
  · exact succeeds_ok _

theorem DigitRun.fractional {run : Text} (h : DigitRun 10 run) :
    ∀ c ∈ run, c = separator ∨ isDigitOf 10 c = true ∨ c ∈ [0x2E, 0x65, 0x45, 0x2B, 0x2D] := by
  intro c hc
  rcases h.isDigitOf_of_mem hc with hsep | hdigit
  · exact .inl hsep
  · exact .inr (.inl hdigit)

theorem Exponent.fractional {t : Text} (h : Exponent t) : Fractional t := by
  obtain ⟨hletter, hsign, h⟩ := h
  constructor
  · intro c hc
    rcases List.mem_cons.1 hc with rfl | hc
    · rcases hletter with rfl | rfl <;> exact .inr (.inr (by decide))
    · rcases List.mem_append.1 hc with hc | hc
      · rcases hsign with rfl | rfl | rfl
        · cases hc
        · cases List.mem_singleton.1 hc
          exact .inr (.inr (by decide))
        · cases List.mem_singleton.1 hc
          exact .inr (.inr (by decide))
      · exact h.fractional c hc
  · refine ⟨_, List.mem_cons_self, ?_⟩
    rcases hletter with rfl | rfl <;> decide

/-- A number is none of the oversized ones if it holds a character that no whole number has. -/
theorem not_oversized_of_mem {t : Text} {c : Nat} (hc : c ∈ t) (hsep : c ≠ separator)
    (hn : c ≠ 0x6E) (hdigit : isDigitOf 10 c = false) : ¬Oversized t := by
  rintro ⟨run, big, rfl, h, -⟩
  rcases List.mem_append.1 hc with hc | hc
  · have := (h.isDigitOf_of_mem hc).resolve_left hsep
    rw [hdigit] at this
    cases this
  · cases big with
    | false => cases hc
    | true => exact hn (List.mem_singleton.1 hc)

theorem not_oversized_of_fractional {t : Text} (h : Fractional t) : ¬Oversized t := by
  obtain ⟨-, m, hmem, hm⟩ := h
  have hmarks : ∀ c ∈ [0x2E, 0x65, 0x45],
      c ≠ separator ∧ c ≠ 0x6E ∧ isDigitOf 10 c = false := by decide
  obtain ⟨hsep, hn, hdigit⟩ := hmarks m hm
  exact not_oversized_of_mem hmem hsep hn hdigit

theorem oversized_whole_iff {run : Text} (big : Bool) (h : DigitRun 10 run) :
    Oversized (run ++ bigMark big) ↔
      digitsBase (digitsOf run) = 10 ∧ maxDigits < (digitsOf run).length := by
  constructor
  · rintro ⟨run', big', heq, h', hover⟩
    have hsame : digitsOf run = digitsOf run' := by
      rw [← normalNumber_whole big h, heq, normalNumber_whole big' h']
    rw [hsame]
    exact hover
  · intro hover
    exact ⟨run, big, rfl, h, hover⟩

/-- A number literal has a value unless it is in base ten and has more digits than are converted. -/
theorem succeeds_ofNumber_iff {t : Text} (h : Spelled t) : Succeeds (ofNumber t) ↔ ¬Oversized t := by
  cases h with
  | marked big hsmall hletter h =>
    obtain ⟨-, -, -, hdigit, hsep, hn⟩ := letter_of_marker hsmall hletter
    rw [ofNumber_marked big hsmall hletter h]
    exact iff_of_true (succeeds_ok _) (not_oversized_of_mem (by simp) hsep hn hdigit)
  | whole big h =>
    rw [ofNumber_whole big h, oversized_whole_iff big h]
    split
    · rename_i hover
      exact iff_of_false (not_succeeds_error _) (not_not_intro hover)
    · rename_i hover
      exact iff_of_true (succeeds_ok _) hover
  | @fraction run part exponent hrun hpart _ hexponent =>
    have hfractional : Fractional (run ++ 0x2E :: (part ++ exponent)) := by
      refine ⟨?_, 0x2E, by simp, by decide⟩
      intro c hc
      rcases List.mem_append.1 hc with hc | hc
      · rcases hrun with rfl | hrun
        · cases hc
        · exact hrun.fractional c hc
      · rcases List.mem_cons.1 hc with rfl | hc
        · exact .inr (.inr (by decide))
        · rcases List.mem_append.1 hc with hc | hc
          · rcases hpart with rfl | hpart
            · cases hc
            · exact hpart.fractional c hc
          · rcases hexponent with rfl | hexponent
            · cases hc
            · exact hexponent.fractional.1 c hc
    exact iff_of_true (succeeds_ofNumber_of_fractional hfractional)
      (not_oversized_of_fractional hfractional)
  | @scaled run exponent hrun hexponent =>
    obtain ⟨hall, m, hmem, hm⟩ := hexponent.fractional
    have hfractional : Fractional (run ++ exponent) := by
      refine ⟨?_, m, List.mem_append_right _ hmem, hm⟩
      intro c hc
      rcases List.mem_append.1 hc with hc | hc
      · exact hrun.fractional c hc
      · exact hall c hc
    exact iff_of_true (succeeds_ofNumber_of_fractional hfractional)
      (not_oversized_of_fractional hfractional)

end LiteralValue

end ElementLint
