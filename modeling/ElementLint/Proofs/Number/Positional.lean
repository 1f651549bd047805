import Mathlib.Data.Nat.Digits.Defs
import ElementLint.Proofs.Number.Reading

/-!
# Digits by their places

`Digit.number` is the number that digits of a base stand for: each digit counts as many times as the base
to the power of the digits after it. Written as characters, with small letters and capitals mixed, they are
digits of their base to the reader of numerals (`isDigitOf_char`), which makes that number of them
(`value_text`).
-/

namespace ElementLint

namespace Numeral

/-- A digit of a base: its value and, from ten on, whether its letter is a capital. -/
structure Digit (base : Nat) where
  value : Fin base
  capital : Bool := false

namespace Digit

/-- The hexadecimal digit with a value, in a small letter or a capital. -/
def hex (value : Nat) (capital : Bool) : Digit 16 := ⟨Fin.ofNat 16 value, capital⟩

variable {base : Nat}

def char (d : Digit base) : Nat :=
  if d.value.val < 10 then 0x30 + d.value
  else (if d.capital then 0x41 else 0x61) + (d.value - 10)

theorem char_eq (hbase : base ≤ 10) (d : Digit base) : d.char = 0x30 + d.value := by
  rw [char, if_pos (by omega)]

def text (ds : List (Digit base)) : Text := ds.map char

@[simp] theorem text_nil : text ([] : List (Digit base)) = [] := rfl

@[simp] theorem text_cons (d : Digit base) (ds : List (Digit base)) :
    text (d :: ds) = d.char :: text ds := rfl

@[simp] theorem length_text (ds : List (Digit base)) : (text ds).length = ds.length :=
  List.length_map _

theorem text_ne_nil {ds : List (Digit base)} (h : ds ≠ []) : text ds ≠ [] := by
  simpa [text] using h

/-- The number that digits stand for, of which the last one counts its own value. -/
def number (ds : List (Digit base)) : Nat :=
  Nat.ofDigits base (ds.reverse.map fun d => d.value.val)

@[simp] theorem number_nil : number ([] : List (Digit base)) = 0 := rfl

theorem number_concat (ds : List (Digit base)) (d : Digit base) :
    number (ds ++ [d]) = number ds * base + d.value := by
  rw [number, List.reverse_append, List.reverse_singleton, List.singleton_append, List.map_cons,
    Nat.ofDigits_cons, number, Nat.mul_comm, Nat.add_comm]

theorem number_singleton (d : Digit base) : number [d] = d.value := by
  simpa using number_concat [] d

theorem digit?_char (hbase : base ≤ 36) (d : Digit base) : digit? d.char = some d.value.val := by
  have hlt := d.value.isLt
  unfold char digit?
  split
  · rw [if_pos (by omega), Nat.add_sub_cancel_left]
  · cases d.capital with
    | false =>
      simp only [Bool.false_eq_true, if_false]
      rw [if_neg (by omega), if_pos (by omega)]
      congr 1
      omega
    | true =>
      simp only [if_true]
      rw [if_neg (by omega), if_neg (by omega), if_pos (by omega)]
      congr 1
      omega

theorem isDigitOf_char (hbase : base ≤ 36) (d : Digit base) : isDigitOf base d.char = true := by
  simp [isDigitOf, digit?_char hbase]

theorem isDigitOf_of_mem_text (hbase : base ≤ 36) (ds : List (Digit base)) :
    ∀ c ∈ text ds, isDigitOf base c = true := by
  simp only [text, List.forall_mem_map]
  exact fun d _ => isDigitOf_char hbase d

/-- Digits are read as the number they stand for. -/
theorem value_text (hbase : base ≤ 36) (ds : List (Digit base)) :
    Numeral.value base (text ds) = number ds := by
  induction ds using List.reverseRecOn with
  | nil => rfl
  | append_singleton ds d ih =>
    have htext : text (ds ++ [d]) = text ds ++ [d.char] := List.map_append
    rw [htext, value_concat base (text ds) d.char d.value (digit?_char hbase d), ih, number_concat]

theorem number_lt (hbase : base ≤ 36) (ds : List (Digit base)) : number ds < base ^ ds.length := by
  rw [← value_text hbase, ← length_text]
  exact value_lt (isDigitOf_of_mem_text hbase ds)

theorem number_lt_of_length_eq (hbase : base ≤ 36) {ds : List (Digit base)} {n : Nat}
    (h : ds.length = n) : number ds < base ^ n :=
  h ▸ number_lt hbase ds

end Digit

end Numeral

end ElementLint
