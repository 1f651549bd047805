import ElementLint.Json.Writer

/-!
# Written JSON is ASCII

Whatever a value holds, what `Json.write` gives of it has only ASCII characters: numbers are written with
digits and signs, and every other character of a text is escaped by its hexadecimal digits. So a JSON answer
can be printed where a message of the same words cannot.
-/

namespace ElementLint

def Text.IsAscii (t : Text) : Prop := ∀ c ∈ t, c < 0x80

namespace Text

@[simp] theorem isAscii_nil : IsAscii [] := List.forall_mem_nil _

@[simp] theorem isAscii_cons {c : Nat} {t : Text} : IsAscii (c :: t) ↔ c < 0x80 ∧ IsAscii t :=
  List.forall_mem_cons

@[simp] theorem isAscii_append {s t : Text} : IsAscii (s ++ t) ↔ IsAscii s ∧ IsAscii t :=
  List.forall_mem_append

instance (t : Text) : Decidable (IsAscii t) := inferInstanceAs (Decidable (∀ c ∈ t, c < 0x80))

theorem IsAscii.take {t : Text} (h : IsAscii t) (n : Nat) : IsAscii (t.take n) :=
  fun c hc => h c (List.mem_of_mem_take hc)

theorem IsAscii.drop {t : Text} (h : IsAscii t) (n : Nat) : IsAscii (t.drop n) :=
  fun c hc => h c (List.mem_of_mem_drop hc)

theorem isAscii_ofNat (n : Nat) : IsAscii (ofNat n) := by
  intro c hc
  obtain ⟨d, hd, rfl⟩ := List.mem_map.1 hc
  have hdigit := Nat.isDigit_of_mem_toDigits (by decide) (Nat.le_refl 10) hd
  simp only [Char.isDigit, Bool.and_eq_true, decide_eq_true_eq, UInt32.le_iff_toNat_le] at hdigit
  exact Nat.lt_of_le_of_lt hdigit.2 (by decide)

theorem isAscii_ofInt (n : Int) : IsAscii (ofInt n) := by
  cases n with
  | ofNat n => exact isAscii_ofNat n
  | negSucc n => exact isAscii_append.2 ⟨by decide, isAscii_ofNat (n + 1)⟩

theorem isAscii_hex (width n : Nat) : IsAscii (hex width n) := by
  induction width generalizing n with
  | zero => exact isAscii_nil
  | succ width ih =>
    have hdigit : hexDigit (n % 16) < 0x80 := by
      rw [hexDigit]
      split <;> omega
    exact isAscii_append.2 ⟨ih (n / 16), by simpa using hdigit⟩

end Text

open Text

namespace Double

theorem isAscii_zeros (n : Nat) : IsAscii (zeros n) := by
  intro c hc
  rw [List.eq_of_mem_replicate hc]
  decide

theorem isAscii_layout {digits : Text} (h : IsAscii digits) (e : Int) : IsAscii (layout digits e) := by
  have hpoint : IsAscii "." := by decide
  unfold layout
  dsimp only
  split
  · split
    · exact isAscii_append.2 ⟨isAscii_append.2 ⟨by decide, isAscii_zeros _⟩, h⟩
    · split
      · exact isAscii_append.2 ⟨isAscii_append.2 ⟨h, isAscii_zeros _⟩, by decide⟩
      · exact isAscii_append.2 ⟨isAscii_append.2 ⟨h.take _, hpoint⟩, h.drop _⟩
  · have hfraction : IsAscii (if digits.length ≤ 1 then [] else "." ++ digits.drop 1) := by
      split
      · exact isAscii_nil
      · exact isAscii_append.2 ⟨hpoint, h.drop 1⟩
    have hsign (p : Int) : IsAscii (ofString (if p < 0 then "-" else "+")) := by split <;> decide
    have hsize (t : Text) (ht : IsAscii t) : IsAscii (if t.length < 2 then "0" ++ t else t) := by
      split
      · exact isAscii_append.2 ⟨by decide, ht⟩
      · exact ht
    simp only [isAscii_append]
    exact ⟨⟨⟨⟨h.take 1, hfraction⟩, by decide⟩, hsign _⟩, hsize _ (isAscii_ofNat _)⟩

theorem isAscii_shown (x : Double) : IsAscii x.shown := by
  have hsign : IsAscii (if x.isNegative then ofString "-" else []) := by split <;> decide
  unfold shown
  split
  · decide
  · dsimp only
    generalize (if x.isNegative then ofString "-" else []) = sign at hsign ⊢
    generalize (if x.isNegative then x.neg else x) = magnitude
    split
    · exact isAscii_append.2 ⟨hsign, by decide⟩
    · split
      · exact isAscii_append.2 ⟨hsign, by decide⟩
      · exact isAscii_append.2 ⟨hsign, isAscii_layout (isAscii_ofNat _) _⟩

end Double

namespace Json

theorem isAscii_writePoint (c : Nat) : IsAscii (writePoint c) := by
  have hmark : IsAscii "\\u" := by decide
  unfold writePoint
  repeat' split
  all_goals first | decide | skip
  · rename_i hc
    simpa using Nat.lt_trans hc.2 (by decide)
  · exact isAscii_append.2 ⟨hmark, isAscii_hex 4 c⟩
  · simp [hmark, isAscii_hex]

theorem isAscii_writeText {t rest : Text} (h : IsAscii rest) : IsAscii (writeText t rest) := by
  have hall : IsAscii (t.foldr (fun c rest => writePoint c ++ rest) (0x22 :: rest)) := by
    induction t with
    | nil => exact isAscii_cons.2 ⟨by decide, h⟩
    | cons c t ih => exact isAscii_append.2 ⟨isAscii_writePoint c, ih⟩
  exact isAscii_cons.2 ⟨by decide, hall⟩

theorem isAscii_writeFloat (x : Double) : IsAscii (writeFloat x) := by
  unfold writeFloat
  split
  · decide
  · split
    · exact Double.isAscii_shown x
    · split <;> decide

mutual

theorem isAscii_writeOnto {rest : Text} (h : IsAscii rest) : ∀ j, IsAscii (writeOnto rest j)
  | .null => isAscii_append.2 ⟨by decide, h⟩
  | .bool b => isAscii_append.2 ⟨by cases b <;> decide, h⟩
  | .int n => isAscii_append.2 ⟨isAscii_ofInt n, h⟩
  | .float x => isAscii_append.2 ⟨isAscii_writeFloat x, h⟩
  | .text t => isAscii_writeText h
  | .list items => isAscii_cons.2 ⟨by decide, isAscii_writeItems (isAscii_cons.2 ⟨by decide, h⟩) items⟩
  | .object fields =>
    isAscii_cons.2 ⟨by decide, isAscii_writeFields (isAscii_cons.2 ⟨by decide, h⟩) fields⟩

theorem isAscii_writeItems {rest : Text} (h : IsAscii rest) : ∀ items, IsAscii (writeItems rest items)
  | [] => h
  | [j] => isAscii_writeOnto h j
  | j :: j' :: more => by
    have hmore := isAscii_writeItems h (j' :: more)
    exact isAscii_writeOnto (by simpa using hmore) j

theorem isAscii_writeFields {rest : Text} (h : IsAscii rest) : ∀ fields, IsAscii (writeFields rest fields)
  | [] => h
  | [(_, j)] => isAscii_writeText (by simpa using isAscii_writeOnto h j)
  | (_, j) :: f :: more => by
    have hmore := isAscii_writeFields h (f :: more)
    have hj : IsAscii (writeOnto (0x2C :: 0x20 :: writeFields rest (f :: more)) j) :=
      isAscii_writeOnto (by simpa using hmore) j
    exact isAscii_writeText (by simpa using hj)

end

/-- What is written of a value is ASCII. -/
theorem isAscii_write (j : Json) : IsAscii j.write := isAscii_writeOnto isAscii_nil j

end Json

end ElementLint
