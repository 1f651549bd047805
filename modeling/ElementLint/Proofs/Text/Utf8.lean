import Mathlib.Tactic.IntervalCases
import ElementLint.Text.Utf8

/-!
# Reading back UTF-8

What `encode` has written `decode` reads back, character by character, and a character that is cut off
counts as one piece. `Finishes p tail c` says both of the bytes that are left of a character: read to their
end they make it up, and whatever part of them is read leaves it unfinished.

The newline byte stands for the newline character only, so lines can be told from the bytes.
-/

namespace ElementLint

namespace Utf8

theorem toNat_toUInt8 {n : Nat} (h : n < 256) : n.toUInt8.toNat = n := by
  rw [Nat.toUInt8, UInt8.toNat_ofNat', Nat.mod_eq_of_lt h]

/-- The bytes that are left of a character: all of them finish it, and fewer leave it unfinished. -/
structure Finishes (p : Pending) (tail : List UInt8) (c : Nat) : Prop where
  whole : ∀ rest, decodeAfter p (tail ++ rest) = some c :: decode rest
  cut : ∀ k < tail.length, decodeAfter p (tail.take k) = [none]

section Continuation

variable {m low high : Nat} (hlow : low ≤ 0x80 + m % 64) (hhigh : 0x80 + m % 64 ≤ high)
include hlow hhigh

/-- A byte within the bounds goes on with a character. -/
theorem decodeAfter_cons (owed : Nat) (rest : List UInt8) :
    decodeAfter ⟨m / 64, owed, low, high⟩ ((0x80 + m % 64).toUInt8 :: rest) =
      if owed ≤ 1 then some m :: decode rest else decodeAfter ⟨m, owed - 1, 0x80, 0xBF⟩ rest := by
  have hm : m / 64 * 64 + m % 64 = m := Nat.div_add_mod' m 64
  rw [decodeAfter, toNat_toUInt8 (by omega), if_pos ⟨hlow, hhigh⟩, Nat.add_sub_cancel_left]
  dsimp only
  rw [hm]

theorem finishes_last : Finishes ⟨m / 64, 1, low, high⟩ [(0x80 + m % 64).toUInt8] m where
  whole rest := by
    rw [List.singleton_append, decodeAfter_cons hlow hhigh, if_pos (Nat.le_refl 1)]
  cut k hk := by
    rw [Nat.lt_one_iff.1 hk, List.take_zero, decodeAfter]

theorem Finishes.cons {owed c : Nat} {tail : List UInt8}
    (h : Finishes ⟨m, owed + 1, 0x80, 0xBF⟩ tail c) :
    Finishes ⟨m / 64, owed + 2, low, high⟩ ((0x80 + m % 64).toUInt8 :: tail) c where
  whole rest := by
    rw [List.cons_append, decodeAfter_cons hlow hhigh, if_neg (by omega)]
    exact h.whole rest
  cut k hk := by
    cases k with
    | zero => rw [List.take_zero, decodeAfter]
    | succ k =>
      rw [List.take_succ_cons, decodeAfter_cons hlow hhigh, if_neg (by omega)]
      exact h.cut k (Nat.lt_of_succ_lt_succ hk)

end Continuation

/-! ## First bytes -/

theorem start_two {k : Nat} (h : 2 ≤ k) (hk : k < 32) :
    start (0xC0 + k) = .lead ⟨k, 1, 0x80, 0xBF⟩ := by
  interval_cases k <;> rfl

theorem start_three {k : Nat} (hk : k < 16) :
    start (0xE0 + k) =
      .lead ⟨k, 2, if k = 0 then 0xA0 else 0x80, if k = 13 then 0x9F else 0xBF⟩ := by
  interval_cases k <;> rfl

theorem start_four {k : Nat} (hk : k < 5) :
    start (0xF0 + k) =
      .lead ⟨k, 3, if k = 0 then 0x90 else 0x80, if k = 4 then 0x8F else 0xBF⟩ := by
  interval_cases k <;> rfl

/-- A character beyond ASCII starts with a byte that says how it goes on. -/
theorem exists_finishes {c : Nat} (hvalid : c.isValidChar) (h : 0x80 ≤ c) :
    ∃ b p tail, encodePoint c = b :: tail ∧ start b.toNat = .lead p ∧ Finishes p tail c := by
  have hbound : c < 0xD800 ∨ 0xDFFF < c ∧ c < 0x110000 := hvalid
  have hlow (m : Nat) : 0x80 ≤ 0x80 + m % 64 := Nat.le_add_right _ _
  have hhigh (m : Nat) : 0x80 + m % 64 ≤ 0xBF := by omega
  have hlast : Finishes ⟨c / 64, 1, 0x80, 0xBF⟩ [(0x80 + c % 64).toUInt8] c :=
    finishes_last (hlow c) (hhigh c)
  rw [encodePoint, if_neg (Nat.not_lt.2 h), show c / 262144 = c / 64 / 64 / 64 by omega,
    show c / 4096 = c / 64 / 64 by omega]
  -- The bounds of a second byte keep out overlong forms and surrogates, and `c` is none of them.
  split
  · have hstart := start_two (k := c / 64) (by omega) (by omega)
    rw [← toNat_toUInt8 (n := 0xC0 + c / 64) (by omega)] at hstart
    exact ⟨_, _, _, rfl, hstart, hlast⟩
  split
  · have hstart := start_three (k := c / 64 / 64) (by omega)
    rw [← toNat_toUInt8 (n := 0xE0 + c / 64 / 64) (by omega)] at hstart
    refine ⟨_, _, _, rfl, hstart, hlast.cons ?_ ?_⟩ <;> split <;> omega
  · have hstart := start_four (k := c / 64 / 64 / 64) (by omega)
    rw [← toNat_toUInt8 (n := 0xF0 + c / 64 / 64 / 64) (by omega)] at hstart
    have hrest := hlast.cons (hlow (c / 64)) (hhigh (c / 64))
    refine ⟨_, _, _, rfl, hstart, hrest.cons ?_ ?_⟩ <;> split <;> omega

/-! ## Characters and texts -/

theorem length_encodePoint_pos (c : Nat) : 0 < (encodePoint c).length := by
  rw [encodePoint]
  repeat' split
  all_goals exact Nat.succ_pos _

theorem encodePoint_ascii {c : Nat} (h : c < 0x80) : encodePoint c = [c.toUInt8] := by
  rw [encodePoint, if_pos h]

theorem decode_ascii_cons {c : Nat} (h : c < 0x80) (rest : List UInt8) :
    decode (c.toUInt8 :: rest) = some c :: decode rest := by
  rw [decode, toNat_toUInt8 (by omega), start, if_pos h]

theorem decode_encodePoint_append {c : Nat} (hvalid : c.isValidChar) (rest : List UInt8) :
    decode (encodePoint c ++ rest) = some c :: decode rest := by
  by_cases h : c < 0x80
  · rw [encodePoint_ascii h, List.singleton_append, decode_ascii_cons h]
  · obtain ⟨b, p, tail, hbytes, hstart, htail⟩ := exists_finishes hvalid (Nat.not_lt.1 h)
    rw [hbytes, List.cons_append, decode, hstart]
    exact htail.whole rest

/-- What is written is read back. -/
theorem decodeLossy_encode {t : Text} (h : ∀ c ∈ t, c.isValidChar) : decodeLossy (encode t) = t := by
  rw [decodeLossy]
  induction t with
  | nil => rfl
  | cons c t ih =>
    obtain ⟨hc, ht⟩ := List.forall_mem_cons.1 h
    rw [encode_cons, decode_encodePoint_append hc, List.map_cons, ih ht, Option.getD_some]

/-- A character that is cut off counts as one piece. -/
theorem decode_take_encodePoint {c k : Nat} (hvalid : c.isValidChar) (hpos : 0 < k)
    (hk : k < (encodePoint c).length) : decode ((encodePoint c).take k) = [none] := by
  by_cases h : c < 0x80
  · rw [encodePoint_ascii h, List.length_singleton] at hk
    omega
  · obtain ⟨b, p, tail, hbytes, hstart, htail⟩ := exists_finishes hvalid (Nat.not_lt.1 h)
    obtain ⟨k, rfl⟩ : ∃ l, k = l + 1 := ⟨k - 1, by omega⟩
    rw [hbytes, List.length_cons] at hk
    rw [hbytes, List.take_succ_cons, decode, hstart]
    exact htail.cut k (Nat.lt_of_succ_lt_succ hk)

/-- The bytes of a character beyond ASCII are beyond ASCII. -/
theorem le_of_mem_encodePoint {c : Nat} (hvalid : c.isValidChar) (h : 0x80 ≤ c) {b : UInt8}
    (hb : b ∈ encodePoint c) : 0x80 ≤ b.toNat := by
  have hbound : c < 0xD800 ∨ 0xDFFF < c ∧ c < 0x110000 := hvalid
  rw [encodePoint, if_neg (Nat.not_lt.2 h)] at hb
  split at hb
  · simp only [List.mem_cons, List.not_mem_nil, or_false] at hb
    rcases hb with rfl | rfl <;> rw [toNat_toUInt8 (by omega)] <;> omega
  split at hb
  · simp only [List.mem_cons, List.not_mem_nil, or_false] at hb
    rcases hb with rfl | rfl | rfl <;> rw [toNat_toUInt8 (by omega)] <;> omega
  · simp only [List.mem_cons, List.not_mem_nil, or_false] at hb
    rcases hb with rfl | rfl | rfl | rfl <;> rw [toNat_toUInt8 (by omega)] <;> omega

theorem encodePoint_newline : encodePoint 0x0A = [0x0A] := rfl

/-- The newline byte is no part of any other character. -/
theorem newline_notMem_encodePoint {c : Nat} (hvalid : c.isValidChar) (hc : c ≠ 0x0A) :
    0x0A ∉ encodePoint c := by
  intro hmem
  by_cases h : c < 0x80
  · rw [encodePoint_ascii h, List.mem_singleton] at hmem
    apply hc
    rw [← toNat_toUInt8 (n := c) (by omega), ← hmem]
    rfl
  · have hle := le_of_mem_encodePoint hvalid (Nat.not_lt.1 h) hmem
    exact absurd hle (by decide)

end Utf8

end ElementLint
