import ElementLint.Node.OfTree
import ElementLint.Proofs.Literal.NumberSpelling
import ElementLint.Proofs.Number.Positional

/-!
# Spellings of whole numbers

`SpellsInteger n t` lists the ways in which a literal `t` spells a natural number `n`: its digits in base
sixteen, eight or two behind a marker, in base ten, or behind a leading zero, which means base eight unless
a digit is too large for it. Underscores may stand between the digits, and the letter `n` behind them.

The main statement says that such a literal has the value `n`. Underscores do not count
(`ofNumber_of_digitsOf_eq`), so the value is that of the digits alone, by their places.
-/

namespace ElementLint

open Numeral

namespace LiteralValue

/-- Characters with any number of underscores between each two of them. -/
inductive Separated : (digits run : Text) → Prop
  | last (c : Nat) : Separated [c] [c]
  | cons (c k : Nat) {digits run : Text} (h : Separated digits run) :
      Separated (c :: digits) (c :: (List.replicate k separator ++ run))

/-- The bases with a marker of their own, and the letter after the zero, small or capital. -/
def markers : List (Nat × Nat) :=
  [(16, 0x78), (16, 0x58), (8, 0x6F), (8, 0x4F), (2, 0x62), (2, 0x42)]

/-- The spellings of a natural number as the literal of a whole number. -/
inductive SpellsInteger : Nat → Text → Prop
  | marked {base letter : Nat} (hmarker : (base, letter) ∈ markers) {digits : List (Digit base)}
      {run : Text} (h : Separated (Digit.text digits) run) (big : Bool) :
      SpellsInteger (Digit.number digits) (0x30 :: letter :: (run ++ bigMark big))
  | decimal {first : Digit 10} {rest : List (Digit 10)} (hzero : first.value = 0 → rest = [])
      (hlen : (first :: rest).length ≤ 4300) {run : Text}
      (h : Separated (Digit.text (first :: rest)) run) (big : Bool) :
      SpellsInteger (Digit.number (first :: rest)) (run ++ bigMark big)
  | zeroOctal {first : Digit 8} {rest : List (Digit 8)} (hzero : first.value = 0) (hne : rest ≠ [])
      {run : Text} (h : Separated (Digit.text (first :: rest)) run) (big : Bool) :
      SpellsInteger (Digit.number (first :: rest)) (run ++ bigMark big)
  | zeroDecimal {first : Digit 10} {rest : List (Digit 10)} (hzero : first.value = 0)
      (hlarge : ∃ d ∈ rest, 8 ≤ d.value) (hlen : (first :: rest).length ≤ 4300) {run : Text}
      (h : Separated (Digit.text (first :: rest)) run) (big : Bool) :
      SpellsInteger (Digit.number (first :: rest)) (run ++ bigMark big)

/-! ## Underscores do not count -/

theorem digitsOf_cons_of_ne {c : Nat} (hc : c ≠ separator) (t : Text) :
    digitsOf (c :: t) = c :: digitsOf t := by
  simp [digitsOf, hc]

theorem digitsOf_replicate (k : Nat) : digitsOf (List.replicate k separator) = [] := by
  simp [digitsOf]

theorem Separated.digitsOf_eq {digits run : Text} (h : Separated digits run)
    (hsep : separator ∉ digits) : digitsOf run = digits := by
  induction h with
  | last c => exact digitsOf_cons_of_ne (by simpa [eq_comm] using hsep) []
  | cons c k _ ih =>
    obtain ⟨hc, hdigits⟩ := not_or.1 (mt List.mem_cons.2 hsep)
    rw [digitsOf_cons_of_ne (Ne.symm hc), digitsOf_append, digitsOf_replicate, List.nil_append,
      ih hdigits]

theorem Separated.ne_nil {digits run : Text} (h : Separated digits run) : digits ≠ [] := by
  cases h <;> simp

/-- A literal has the whole value of any other one with the same characters besides the underscores. -/
theorem ofNumber_of_digitsOf_eq {t u : Text} {n : Int} (h : digitsOf t = digitsOf u)
    (hu : ofNumber u = .ok (.int n)) : ofNumber t = .ok (.int n) := by
  have hnormal : normalNumber t = normalNumber u := by
    rw [normalNumber, normalNumber, ← digitsOf, ← digitsOf, h]
  rw [ofNumber] at hu ⊢
  rw [hnormal]
  split at hu
  · exact hu
  · split at hu
    · rw [if_pos ‹_›]
      exact hu
    · split at hu <;> cases hu

/-! ## Digits alone -/

theorem digitRun_of_digits {base : Nat} {t : Text} (hne : t ≠ [])
    (h : ∀ c ∈ t, isDigitOf base c = true) : DigitRun base t := by
  induction t with
  | nil => exact absurd rfl hne
  | cons c t ih =>
    obtain ⟨hc, ht⟩ := List.forall_mem_cons.1 h
    by_cases hnil : t = []
    · subst hnil
      exact .one hc
    · exact .cons hc (ih hnil ht)

variable {base : Nat}

theorem value_ofNumber_marked {small letter : Nat} (hsmall : marker? base = some small)
    (hletter : letter = small ∨ letter + 32 = small) {digits : List (Digit base)} {run : Text}
    (h : Separated (Digit.text digits) run) (big : Bool) :
    ofNumber (0x30 :: letter :: (run ++ bigMark big)) = .ok (.int (Digit.number digits)) := by
  obtain ⟨hbase, -, -, -, hsep, -⟩ := letter_of_marker hsmall hletter
  have hdigits := Digit.isDigitOf_of_mem_text (by omega) digits
  have hplain := h.digitsOf_eq (separator_notMem_digits hbase hdigits)
  have hself : digitsOf (Digit.text digits) = Digit.text digits :=
    filter_separator_digits hbase hdigits
  have hrun := digitRun_of_digits h.ne_nil hdigits
  have hvalue := ofNumber_marked big hsmall hletter hrun
  rw [hself, Digit.value_text (by omega)] at hvalue
  refine ofNumber_of_digitsOf_eq ?_ hvalue
  rw [digitsOf_cons_of_ne (by decide), digitsOf_cons_of_ne hsep, digitsOf_append, hplain,
    digitsOf_cons_of_ne (by decide), digitsOf_cons_of_ne hsep, digitsOf_append, hself]

/-- Digits without a marker have the value that they have in their base, if they are not too many. -/
theorem value_ofNumber_whole (hbase : base ≤ 10) {digits : List (Digit base)}
    (hdigitsBase : digitsBase (Digit.text digits) = base)
    (hlen : base = 10 → digits.length ≤ 4300) {run : Text} (h : Separated (Digit.text digits) run)
    (big : Bool) : ofNumber (run ++ bigMark big) = .ok (.int (Digit.number digits)) := by
  have hdigits := Digit.isDigitOf_of_mem_text (by omega) digits
  have hplain := h.digitsOf_eq (separator_notMem_digits (by omega) hdigits)
  have hself : digitsOf (Digit.text digits) = Digit.text digits :=
    filter_separator_digits (by omega) hdigits
  have hrun := digitRun_of_digits h.ne_nil fun c hc => isDigitOf_mono hbase (hdigits c hc)
  have hvalue := ofNumber_whole big hrun
  rw [hself, hdigitsBase, Digit.value_text (by omega), Digit.length_text, if_neg] at hvalue
  · refine ofNumber_of_digitsOf_eq ?_ hvalue
    rw [digitsOf_append, hplain, digitsOf_append, hself]
  · rintro ⟨hten, hmany⟩
    have := hlen hten
    rw [maxDigits] at hmany
    omega

/-! ## The base of digits without a marker -/

theorem digitsBase_decimal {first : Digit 10} {rest : List (Digit 10)}
    (hzero : first.value = 0 → rest = []) : digitsBase (Digit.text (first :: rest)) = 10 := by
  rw [digitsBase, if_neg]
  rintro ⟨hlen, hhead, -⟩
  have hfirst : first.value = 0 := by
    rw [Digit.text_cons, List.head?_cons, Digit.char_eq (by omega), Option.some.injEq] at hhead
    omega
  simp [hzero hfirst] at hlen

theorem digitsBase_zeroOctal {first : Digit 8} {rest : List (Digit 8)} (hzero : first.value = 0)
    (hne : rest ≠ []) : digitsBase (Digit.text (first :: rest)) = 8 := by
  have hlen : 0 < rest.length := List.length_pos_of_ne_nil hne
  rw [digitsBase, if_pos]
  refine ⟨by simpa using hlen, ?_, ?_⟩
  · rw [Digit.text_cons, List.head?_cons, Digit.char_eq (by omega), hzero]
    rfl
  · rw [List.all_eq_true]
    intro c hc
    have := range_of_decimal (by omega) (Digit.isDigitOf_of_mem_text (by omega) _ c hc)
    simp only [decide_eq_true_eq]
    omega

theorem digitsBase_zeroDecimal {first : Digit 10} {rest : List (Digit 10)}
    (hlarge : ∃ d ∈ rest, 8 ≤ d.value) : digitsBase (Digit.text (first :: rest)) = 10 := by
  obtain ⟨d, hd, hvalue⟩ := hlarge
  rw [digitsBase, if_neg]
  rintro ⟨-, -, hall⟩
  have hmem : d.char ∈ Digit.text (first :: rest) := List.mem_cons_of_mem _ (List.mem_map_of_mem hd)
  have hchar := List.all_eq_true.1 hall _ hmem
  rw [Digit.char_eq (by omega), decide_eq_true_eq] at hchar
  omega

/-! ## The value of a spelling -/

theorem marker_of_mem_markers {base letter : Nat} (h : (base, letter) ∈ markers) :
    ∃ small, marker? base = some small ∧ (letter = small ∨ letter + 32 = small) := by
  simp only [markers, List.mem_cons, Prod.mk.injEq, List.not_mem_nil, or_false] at h
  rcases h with ⟨rfl, rfl⟩ | ⟨rfl, rfl⟩ | ⟨rfl, rfl⟩ | ⟨rfl, rfl⟩ | ⟨rfl, rfl⟩ | ⟨rfl, rfl⟩ <;>
    exact ⟨_, rfl, by decide⟩

/-- A literal that spells a natural number has this number as its value, and becomes a node with this
value. -/
theorem ofNumber_of_spellsInteger {n : Nat} {t : Text} (h : SpellsInteger n t) :
    ofNumber t = .ok (.int n) ∧
      ∀ (v : Node.View) (limit : Nat) (tree : Tree), tree.form = .number →
        v.excerpt tree.label = t →
        Node.ofTree v (limit + 1) tree = .ok (.literal (v.locate tree.label) (.int n) t) := by
  have hvalue : ofNumber t = .ok (.int n) := by
    cases h with
    | marked hmarker h big =>
      obtain ⟨small, hsmall, hletter⟩ := marker_of_mem_markers hmarker
      exact value_ofNumber_marked hsmall hletter h big
    | decimal hzero hlen h big =>
      exact value_ofNumber_whole (by omega) (digitsBase_decimal hzero) (fun _ => hlen) h big
    | zeroOctal hzero hne h big =>
      exact value_ofNumber_whole (by omega) (digitsBase_zeroOctal hzero hne) (by omega) h big
    | zeroDecimal _ hlarge hlen h big =>
      exact value_ofNumber_whole (by omega) (digitsBase_zeroDecimal hlarge) (fun _ => hlen) h big
  refine ⟨hvalue, fun v limit tree hform htext => ?_⟩
  rw [Node.ofTree, Node.ofTreeWith, hform, htext]
  dsimp only
  rw [hvalue]
  rfl

/-- Capitals and small letters with an underscore and the letter `n`, digits behind a zero in base eight and
in base ten, and a decimal number with two underscores in one place. -/
theorem ofNumber_of_spellsInteger_forms :
    (SpellsInteger 65290 "0XfF_0an" ∧ ofNumber "0XfF_0an" = .ok (.int 65290)) ∧
      (SpellsInteger 15 "0_17" ∧ ofNumber "0_17" = .ok (.int 15)) ∧
      (SpellsInteger 89 "089n" ∧ ofNumber "089n" = .ok (.int 89)) ∧
      SpellsInteger 1000 "1__000" ∧ ofNumber "1__000" = .ok (.int 1000) := by
  have hmarked : SpellsInteger 65290 "0XfF_0an" :=
    @SpellsInteger.marked 16 0x58 (by decide) [⟨15, false⟩, ⟨15, true⟩, ⟨0, false⟩, ⟨10, false⟩]
      "fF_0a" (.cons _ 0 (.cons _ 1 (.cons _ 0 (.last _)))) true
  have hoctal : SpellsInteger 15 "0_17" :=
    @SpellsInteger.zeroOctal ⟨0, false⟩ [⟨1, false⟩, ⟨7, false⟩] rfl (by simp) "0_17"
      (.cons _ 1 (.cons _ 0 (.last _))) false
  have hzero : SpellsInteger 89 "089n" :=
    @SpellsInteger.zeroDecimal ⟨0, false⟩ [⟨8, false⟩, ⟨9, false⟩] rfl
      ⟨_, List.mem_cons_self, by decide⟩ (by decide) "089" (.cons _ 0 (.cons _ 0 (.last _))) true
  have hdecimal : SpellsInteger 1000 "1__000" :=
    @SpellsInteger.decimal ⟨1, false⟩ [⟨0, false⟩, ⟨0, false⟩, ⟨0, false⟩] (by decide) (by decide) "1__000"
      (.cons _ 2 (.cons _ 0 (.cons _ 0 (.last _)))) false
  exact ⟨⟨hmarked, (ofNumber_of_spellsInteger hmarked).1⟩,
    ⟨hoctal, (ofNumber_of_spellsInteger hoctal).1⟩, ⟨hzero, (ofNumber_of_spellsInteger hzero).1⟩,
    hdecimal, (ofNumber_of_spellsInteger hdecimal).1⟩

end LiteralValue

end ElementLint
