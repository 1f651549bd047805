import Mathlib.Data.List.Infix
import ElementLint.Text.Basic

/-!
# UTF-16

`encode` writes a text as UTF-16 code units, and `decode` puts them together again: a high surrogate and a low
one right after it make up one code point, and any other unit is a code point by itself. A text comes back
unless it holds such a pair written as two code points (`decode_encode`).
-/

namespace ElementLint

namespace Utf16

def encodePoint (c : Nat) : List Nat :=
  if c < 0x10000 then [c] else [0xD800 + (c - 0x10000) / 0x400, 0xDC00 + (c - 0x10000) % 0x400]

def encode (t : Text) : List Nat := t.flatMap encodePoint

theorem encode_cons (c : Nat) (t : Text) : encode (c :: t) = encodePoint c ++ encode t :=
  List.flatMap_cons

def IsHigh (u : Nat) : Prop := 0xD800 ≤ u ∧ u < 0xDC00

def IsLow (u : Nat) : Prop := 0xDC00 ≤ u ∧ u < 0xE000

instance (u : Nat) : Decidable (IsHigh u) := inferInstanceAs (Decidable (_ ∧ _))

instance (u : Nat) : Decidable (IsLow u) := inferInstanceAs (Decidable (_ ∧ _))

/-- The text that code units stand for. -/
def decode : List Nat → Text
  | [] => []
  | [u] => [u]
  | u :: w :: rest =>
    if IsHigh u ∧ IsLow w then
      (0x10000 + (u - 0xD800) * 0x400 + (w - 0xDC00)) :: decode rest
    else u :: decode (w :: rest)

/-- A high surrogate and a low one right after it are code points of their own in a text. -/
def HasPair (t : Text) : Prop := ∃ high low, IsHigh high ∧ IsLow low ∧ [high, low] <:+: t

theorem HasPair.cons {t : Text} (h : HasPair t) (c : Nat) : HasPair (c :: t) := by
  obtain ⟨high, low, hhigh, hlow, hpart⟩ := h
  exact ⟨high, low, hhigh, hlow, List.infix_cons hpart⟩

/-- A low surrogate comes first among the units of a text only if it is the first code point. -/
theorem exists_cons_of_encode {t : Text} (hbound : ∀ c ∈ t, c < 0x110000) {w : Nat} {rest : List Nat}
    (h : encode t = w :: rest) (hw : IsLow w) : ∃ t', t = w :: t' := by
  cases t with
  | nil => cases h
  | cons c t =>
    rw [encode_cons, encodePoint] at h
    split at h
    · cases h
      exact ⟨t, rfl⟩
    · have hc := hbound c List.mem_cons_self
      have hfirst : 0xD800 + (c - 0x10000) / 0x400 = w := (List.cons.inj h).1
      have hlow : 0xDC00 ≤ w := hw.1
      omega

/-- A text without surrogate pairs is what its units stand for. -/
theorem decode_encode {t : Text} (hbound : ∀ c ∈ t, c < 0x110000) (hpair : ¬HasPair t) :
    decode (encode t) = t := by
  induction t with
  | nil => rfl
  | cons c t ih =>
    obtain ⟨hc, ht⟩ := List.forall_mem_cons.1 hbound
    have hrest := ih ht fun h => hpair (h.cons c)
    rw [encode_cons, encodePoint]
    split
    · -- The next unit does not complete a pair, since it would be the next code point.
      rw [List.singleton_append]
      cases hunits : encode t with
      | nil =>
        rw [hunits] at hrest
        rw [← hrest]
        rfl
      | cons w rest =>
        rw [hunits] at hrest
        rw [decode, if_neg, hrest]
        rintro ⟨hhigh, hlow⟩
        obtain ⟨t', rfl⟩ := exists_cons_of_encode ht hunits hlow
        exact hpair ⟨c, w, hhigh, hlow, [], t', rfl⟩
    · have hpoint : 0x10000 + (0xD800 + (c - 0x10000) / 0x400 - 0xD800) * 0x400 +
          (0xDC00 + (c - 0x10000) % 0x400 - 0xDC00) = c := by omega
      have hhigh : IsHigh (0xD800 + (c - 0x10000) / 0x400) := ⟨by omega, by omega⟩
      have hlow : IsLow (0xDC00 + (c - 0x10000) % 0x400) := ⟨by omega, by omega⟩
      rw [List.cons_append, List.singleton_append, decode, if_pos ⟨hhigh, hlow⟩, hpoint, hrest]

end Utf16

end ElementLint
