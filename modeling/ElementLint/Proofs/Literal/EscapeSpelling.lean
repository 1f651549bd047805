import ElementLint.Literal.Escape
import ElementLint.Proofs.Attempt
import ElementLint.Proofs.Number.Reading

/-!
# Spellings of escape sequences

`Escape.Spelled` lists the spellings of an escape sequence: digits in base eight or sixteen, a line
continuation, or a single character. The main statement says which of them denote nothing: only one that
names, in braces, a code point beyond the last one.
-/

namespace ElementLint

open Attempt Numeral

namespace Escape

/-- The spellings of an escape sequence. -/
inductive Spelled : Text → Prop
  | octal {digits : Text} (hne : digits ≠ []) (hlen : digits.length ≤ 3)
      (h : ∀ c ∈ digits, isDigitOf 8 c = true) : Spelled (0x5C :: digits)
  | byte {digits : Text} (hlen : digits.length = 2)
      (h : ∀ c ∈ digits, isDigitOf 16 c = true) : Spelled (0x5C :: 0x78 :: digits)
  | unit {digits : Text} (hlen : digits.length = 4)
      (h : ∀ c ∈ digits, isDigitOf 16 c = true) : Spelled (0x5C :: 0x75 :: digits)
  | braced {digits : Text} (hne : digits ≠ [])
      (h : ∀ c ∈ digits, isDigitOf 16 c = true) : Spelled (0x5C :: 0x75 :: 0x7B :: (digits ++ [0x7D]))
  | continuation {c : Nat} (rest : Text) (h : isLineEnd c = true) : Spelled (0x5C :: c :: rest)
  | character {c : Nat} (hx : c ≠ 0x78) (hu : c ≠ 0x75) (h : isDigitOf 8 c = false) :
      Spelled [0x5C, c]

/-- An escape sequence whose digits, in braces, stand for no code point. -/
def Beyond (t : Text) : Prop :=
  ∃ digits : Text, t = 0x5C :: 0x75 :: 0x7B :: (digits ++ [0x7D]) ∧
    (∀ c ∈ digits, isDigitOf 16 c = true) ∧ 0x110000 ≤ value 16 digits

theorem succeeds_point_iff (n : Nat) : Succeeds (point n) ↔ n < 0x110000 := by
  rw [point]
  split
  · exact iff_of_false (not_succeeds_error _) (by omega)
  · split
    · exact iff_of_false (not_succeeds_error _) (by omega)
    · exact iff_of_true (succeeds_ok _) (by omega)

theorem pointOf_digits {base letter : Nat} (hbase : base ≤ 16) (hletter : marker? base = some letter)
    {digits : Text} (hne : digits ≠ []) (h : ∀ c ∈ digits, isDigitOf base c = true) :
    pointOf base digits = point (value base digits) := by
  rw [pointOf, read_digits hbase h hne, if_neg]
  rintro ⟨hnone, -⟩
  rw [hletter] at hnone
  cases hnone

/-- Few digits stay below the last code point. -/
theorem succeeds_pointOf {base letter : Nat} (hbase : base ≤ 16)
    (hletter : marker? base = some letter) {digits : Text} (hne : digits ≠ [])
    (h : ∀ c ∈ digits, isDigitOf base c = true) (hfew : base ^ digits.length ≤ 0x110000) :
    Succeeds (pointOf base digits) := by
  rw [pointOf_digits hbase hletter hne h, succeeds_point_iff]
  exact Nat.lt_of_lt_of_le (value_lt h) hfew

theorem isLineEnd_eq_false {c : Nat} (h : 0x30 ≤ c) (h' : c < 0x80) : isLineEnd c = false := by
  simp only [isLineEnd, Bool.or_eq_false_iff, beq_eq_false_iff_ne]
  omega

theorem decodeBody_octal {c : Nat} {rest : Text} (h : ∀ d ∈ c :: rest, isDigitOf 8 d = true)
    (hne : rest ≠ []) : decodeBody (c :: rest) = pointOf 8 (c :: rest) := by
  obtain ⟨hlo, hhi⟩ := range_of_decimal (by decide) (h c List.mem_cons_self)
  have hrest : rest.all Text.isDigit = true := by
    rw [List.all_eq_true]
    intro d hd
    exact isDigit_of_isDigitOf (by decide) (h d (List.mem_cons_of_mem _ hd))
  rw [decodeBody, isLineEnd_eq_false hlo (by omega), if_neg (by simp),
    if_pos ⟨hlo, by omega, hne, hrest⟩]

theorem decodeBody_byte {digits : Text} (hlen : digits.length = 2) :
    decodeBody (0x78 :: digits) = pointOf 16 digits := by
  rw [decodeBody, if_neg (by decide), if_neg (by omega), if_pos ⟨rfl, hlen⟩]

theorem decodeBody_unicode (rest : Text) :
    decodeBody (0x75 :: rest) = pointOf 16 (unicodeDigits rest) := by
  rw [decodeBody, if_neg (by decide), if_neg (by omega), if_neg (by omega), if_pos rfl]

/-- An escape of one character always denotes something. -/
theorem succeeds_decodeBody_single {c : Nat} (hu : c ≠ 0x75) : Succeeds (decodeBody [c]) := by
  rw [decodeBody]
  split
  · exact succeeds_ok _
  · rw [if_neg (by simp), if_neg (by simp)]
    exact succeeds_ok _

/-- An escape sequence denotes something unless it names a code point beyond the last one. -/
theorem succeeds_decode_iff {t : Text} (h : Spelled t) : Succeeds (decode t) ↔ ¬Beyond t := by
  -- Only one spelling has a brace behind its second character.
  have hbrace {t : Text} (ht : ∀ rest, t ≠ 0x5C :: 0x75 :: 0x7B :: rest) : ¬Beyond t := by
    rintro ⟨digits, heq, -⟩
    exact ht _ heq
  have hhex : ¬isDigitOf 16 0x7B = true := by decide
  cases h with
  | @octal digits hne hlen h =>
    refine iff_of_true ?_ (hbrace ?_)
    · obtain ⟨c, rest, rfl⟩ := List.exists_cons_of_ne_nil hne
      by_cases hrest : rest = []
      · subst hrest
        obtain ⟨-, hhi⟩ := range_of_decimal (by decide) (h c List.mem_cons_self)
        exact succeeds_decodeBody_single (by omega)
      · rw [decode, List.tail_cons, decodeBody_octal h hrest]
        have hfew : 8 ^ (c :: rest).length ≤ 8 ^ 3 := Nat.pow_le_pow_right (by decide) hlen
        exact succeeds_pointOf (by decide) rfl hne h (Nat.le_trans hfew (by decide))
    · intro rest heq
      cases heq
      exact absurd (h 0x75 List.mem_cons_self) (by decide)
  | @byte digits hlen h =>
    refine iff_of_true ?_ (hbrace nofun)
    rw [decode, List.tail_cons, decodeBody_byte hlen]
    apply succeeds_pointOf (by decide) rfl _ h
    · rw [hlen]
      decide
    · rintro rfl
      cases hlen
  | @unit digits hlen h =>
    refine iff_of_true ?_ (hbrace ?_)
    · have hdigits : unicodeDigits digits = digits := by
        rw [unicodeDigits.eq_def]
        split
        · exact absurd (h 0x7B List.mem_cons_self) hhex
        · rfl
      rw [decode, List.tail_cons, decodeBody_unicode, hdigits]
      apply succeeds_pointOf (by decide) rfl _ h
      · rw [hlen]
        decide
      · rintro rfl
        cases hlen
    · intro rest heq
      cases heq
      exact absurd (h 0x7B List.mem_cons_self) hhex
  | @braced digits hne h =>
    rw [decode, List.tail_cons, decodeBody_unicode, unicodeDigits, List.dropLast_concat,
      pointOf_digits (by decide) rfl hne h, succeeds_point_iff, ← Nat.not_le]
    apply not_congr
    constructor
    · intro hlarge
      exact ⟨digits, rfl, h, hlarge⟩
    · rintro ⟨digits', heq, -, hlarge⟩
      have heq : digits ++ [0x7D] = digits' ++ [0x7D] := by simpa using heq
      rw [List.append_cancel_right heq]
      exact hlarge
  | @continuation c rest h =>
    refine iff_of_true ?_ (hbrace ?_)
    · rw [decode, List.tail_cons, decodeBody, if_pos h]
      exact succeeds_ok _
    · intro rest' heq
      cases heq
      cases h
  | @character c hx hu h => exact iff_of_true (succeeds_decodeBody_single hu) (hbrace nofun)

end Escape

end ElementLint
