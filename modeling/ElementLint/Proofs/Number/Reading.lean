import ElementLint.Number.Numeral
import ElementLint.Text.Lowercase
import Mathlib.Algebra.Order.Ring.Nat
import Mathlib.Data.List.Induction
import Mathlib.Data.List.TakeWhile

/-!
# Reading digits

What `Numeral.read` makes of a text that holds nothing but digits of its base, after the base's marker
or without one: the value of the digits, unless there are too many of them. The bases are at most sixteen,
so the digits are ASCII characters, and the steps that take care of white space, of signs and of digits of
other scripts have nothing to do.
-/

namespace ElementLint

namespace Text

/-- The small letter of an ASCII capital. -/
def lowerAscii (c : Nat) : Nat := if 0x41 ≤ c ∧ c ≤ 0x5A then c + 32 else c

theorem lower_eq_map {t : Text} (h : ∀ c ∈ t, c < 0x80) : lower t = t.map lowerAscii := by
  have hsigma : capitalSigma ∉ t := by
    intro hmem
    have := h _ hmem
    simp [capitalSigma] at this
  rw [lower_eq_flatMap hsigma]
  induction t with
  | nil => rfl
  | cons c t ih =>
    have hc : lowerPoint c = [lowerAscii c] := by
      rw [lowerPoint, if_pos (h c List.mem_cons_self), lowerAscii]
    have hrest := ih (fun c' hc' => h c' (List.mem_cons_of_mem _ hc'))
      (fun hmem => hsigma (List.mem_cons_of_mem _ hmem))
    rw [List.flatMap_cons, hc, hrest, List.map_cons]
    rfl

theorem contains_eq_false {t : Text} {c : Nat} (hc : c ∉ t) (part : Text) :
    contains t (c :: part) = false := by
  rw [contains]
  induction t with
  | nil => rfl
  | cons d t ih =>
    obtain ⟨hd, ht⟩ := not_or.1 (mt List.mem_cons.2 hc)
    rw [contains.tails, List.any_cons, ih ht, Bool.or_false, List.isPrefixOf_cons_cons,
      beq_eq_false_iff_ne.2 hd, Bool.false_and]

end Text

namespace Numeral

variable {base : Nat}

theorem range_of_isDigitOf (hbase : base ≤ 16) {c : Nat} (h : isDigitOf base c = true) :
    (0x30 ≤ c ∧ c ≤ 0x39) ∨ (0x61 ≤ c ∧ c ≤ 0x66) ∨ (0x41 ≤ c ∧ c ≤ 0x46) := by
  rw [isDigitOf] at h
  split at h
  · rename_i d hd
    have hlt : d < base := by simpa using h
    rw [digit?] at hd
    split at hd
    · exact .inl ‹_›
    · split at hd
      · cases hd
        omega
      · split at hd
        · cases hd
          omega
        · cases hd
  · cases h

theorem range_of_decimal (hbase : base ≤ 10) {c : Nat} (h : isDigitOf base c = true) :
    0x30 ≤ c ∧ c < 0x30 + base := by
  rw [isDigitOf] at h
  split at h
  · rename_i d hd
    have hlt : d < base := by simpa using h
    rw [digit?] at hd
    repeat' split at hd
    all_goals cases hd
    all_goals omega
  · cases h

theorem isDigitOf_mono {base base' c : Nat} (hle : base ≤ base') (h : isDigitOf base c = true) :
    isDigitOf base' c = true := by
  rw [isDigitOf] at h ⊢
  cases hd : digit? c with
  | none => simp [hd] at h
  | some d =>
    simp only [hd, decide_eq_true_eq] at h ⊢
    omega

theorem isDigit_of_isDigitOf (hbase : base ≤ 10) {c : Nat} (h : isDigitOf base c = true) :
    Text.isDigit c = true := by
  obtain ⟨hlo, hhi⟩ := range_of_decimal hbase h
  rw [Text.isDigit, Text.decimal?, if_pos (by omega), if_pos (by omega)]
  rfl

theorem isDigitOf_lowerAscii (hbase : base ≤ 16) {c : Nat} (h : isDigitOf base c = true) :
    digit? (Text.lowerAscii c) = digit? c := by
  rcases range_of_isDigitOf hbase h with hc | hc | hc
  · rw [Text.lowerAscii, if_neg (by omega)]
  · rw [Text.lowerAscii, if_neg (by omega)]
  · rw [Text.lowerAscii, if_pos (by omega), digit?, digit?, if_neg (by omega), if_pos (by omega),
      if_neg (by omega), if_neg (by omega), if_pos (by omega)]
    congr 1

theorem value_lt {base : Nat} {digits : Text} (h : ∀ c ∈ digits, isDigitOf base c = true) :
    value base digits < base ^ digits.length := by
  induction digits using List.reverseRecOn with
  | nil => simp
  | append_singleton digits c ih =>
    obtain ⟨d, hd, hlt⟩ : ∃ d, digit? c = some d ∧ d < base := by
      have hc := h c (by simp)
      rw [isDigitOf] at hc
      split at hc
      · rename_i d hd
        exact ⟨d, hd, by simpa using hc⟩
      · cases hc
    have hle : value base digits + 1 ≤ base ^ digits.length :=
      ih fun c' hc' => h c' (List.mem_append_left _ hc')
    rw [value_concat base digits c d hd, List.length_append, List.length_singleton, Nat.pow_succ]
    calc value base digits * base + d
      _ < value base digits * base + base := Nat.add_lt_add_left hlt _
      _ = (value base digits + 1) * base := by rw [Nat.succ_mul]
      _ ≤ base ^ digits.length * base := Nat.mul_le_mul_right base hle

/-- Capitals count the same as small letters. -/
theorem value_map_lowerAscii {base : Nat} (hbase : base ≤ 16) {digits : Text}
    (h : ∀ c ∈ digits, isDigitOf base c = true) :
    value base (digits.map Text.lowerAscii) = value base digits := by
  induction digits using List.reverseRecOn with
  | nil => rfl
  | append_singleton digits c ih =>
    have hc := isDigitOf_lowerAscii hbase (h c (by simp))
    have hrest := ih fun c' hc' => h c' (List.mem_append_left _ hc')
    unfold value at hrest ⊢
    simp only [List.map_append, List.foldl_append, hrest, List.map_cons, List.map_nil,
      List.foldl_cons, List.foldl_nil, hc]

/-- The letter of a marker is no digit of the base, small or capital. -/
theorem not_marker_of_isDigitOf {m letter : Nat} (hletter : marker? base = some letter)
    (h : isDigitOf base m = true) : ¬(m = letter ∨ m + 32 = letter) := by
  rintro hm
  rw [marker?.eq_def] at hletter
  split at hletter <;> cases hletter
  all_goals
    rcases hm with rfl | hm
    · exact absurd h (by decide)
    · rw [Nat.eq_sub_of_add_eq hm] at h
      exact absurd h (by decide)

/-! ## The steps that have nothing to do -/

/-- ASCII characters from the zero on, among which there is neither white space nor a sign. -/
def Bare (t : Text) : Prop := ∀ c ∈ t, 0x30 ≤ c ∧ c < 0x80

theorem bare_of_digits (hbase : base ≤ 16) {t : Text} (h : ∀ c ∈ t, isDigitOf base c = true) :
    Bare t := by
  intro c hc
  have := range_of_isDigitOf hbase (h c hc)
  omega

theorem Bare.dropWhile_isSpace {t : Text} (h : Bare t) : t.dropWhile isSpace = t := by
  cases t with
  | nil => rfl
  | cons c t =>
    have hc := h c List.mem_cons_self
    have hspace : isSpace c = false := by
      simp only [isSpace, Bool.or_eq_false_iff, Bool.and_eq_false_iff, decide_eq_false_iff_not,
        beq_eq_false_iff_ne]
      omega
    rw [List.dropWhile_cons_of_neg (by simp [hspace])]

theorem Bare.plain_eq {t : Text} (h : Bare t) : plain t = t := by
  have hmap : t.map plainPoint = t := by
    have hpoint : ∀ c ∈ t, plainPoint c = id c := by
      intro c hc
      rw [plainPoint, if_pos (h c hc).2, id]
    rw [List.map_congr_left hpoint, List.map_id]
  have hreverse : Bare t.reverse := fun c hc => h c (List.mem_reverse.1 hc)
  rw [plain, hmap, h.dropWhile_isSpace, hreverse.dropWhile_isSpace, List.reverse_reverse]

theorem Bare.splitSign_eq {t : Text} (h : Bare t) : splitSign t = (false, t) := by
  rw [splitSign.eq_def]
  split
  · have := h 0x2D List.mem_cons_self
    omega
  · have := h 0x2B List.mem_cons_self
    omega
  · rfl

/-! ## Digits -/

section Digits

variable (hbase : base ≤ 16) {digits : Text} (h : ∀ c ∈ digits, isDigitOf base c = true)
include hbase h

theorem separator_notMem_digits : separator ∉ digits := by
  intro hmem
  have := range_of_isDigitOf hbase (h _ hmem)
  rw [separator] at this
  omega

theorem wellSeparated_digits : wellSeparated digits = true := by
  have hsep := separator_notMem_digits hbase h
  have hhead : digits.head? ≠ some separator := fun heq => hsep (List.mem_of_head? heq)
  have hlast : digits.getLast? ≠ some separator := fun heq => hsep (List.mem_of_getLast? heq)
  have hpair := Text.contains_eq_false hsep [separator]
  simp [wellSeparated, hhead, hlast, hpair]

theorem filter_separator_digits : digits.filter (· != separator) = digits := by
  rw [List.filter_eq_self]
  intro c hc
  have hne : c ≠ separator := fun heq => separator_notMem_digits hbase h (heq ▸ hc)
  simpa using hne

omit hbase in
/-- Digits do not start with a marker of their base. -/
theorem dropMarker_digits : dropMarker base digits = digits := by
  unfold dropMarker
  split
  · rename_i m rest letter hletter
    rw [if_neg (not_marker_of_isDigitOf hletter (h m (by simp)))]
  · rfl

/-- A text that is digits behind what `dropMarker` takes off is their value, if they are not too many. -/
theorem read_of_dropMarker {t : Text} (ht : Bare t) (hdrop : dropMarker base t = digits)
    (hne : digits ≠ []) (named : Nat) :
    read base named t =
      if marker? base = none ∧ maxDigits < digits.length then .error (.tooLong digits.length)
      else .ok (value base digits) := by
  have hrun : ∀ c ∈ digits, (c == separator || isDigitOf base c) = true := by
    intro c hc
    rw [h c hc, Bool.or_true]
  have htake := List.takeWhile_eq_self_iff.2 hrun
  have hrest := List.dropWhile_eq_nil_iff.2 hrun
  rw [read, ht.plain_eq, ht.splitSign_eq]
  dsimp only
  rw [hdrop, htake, hrest, wellSeparated_digits hbase h, filter_separator_digits hbase h]
  by_cases hlong : marker? base = none ∧ maxDigits < digits.length
  · simp [hlong]
  · simp [hlong, hne]

/-- Digits alone are read as their value, if they are not too many. -/
theorem read_digits (hne : digits ≠ []) (named : Nat) :
    read base named digits =
      if marker? base = none ∧ maxDigits < digits.length then .error (.tooLong digits.length)
      else .ok (value base digits) :=
  read_of_dropMarker hbase h (bare_of_digits hbase h) (dropMarker_digits h) hne named

/-- Digits behind the marker of their base are read as their value. -/
theorem read_marked {letter : Nat} (hletter : marker? base = some letter) (hne : digits ≠ [])
    (named : Nat) : read base named (0x30 :: letter :: digits) = .ok (value base digits) := by
  have hrange : 0x30 ≤ letter ∧ letter < 0x80 := by
    rw [marker?.eq_def] at hletter
    split at hletter <;> cases hletter <;> omega
  have hbare : Bare (0x30 :: letter :: digits) := by
    intro c hc
    rcases List.mem_cons.1 hc with rfl | hc
    · omega
    · rcases List.mem_cons.1 hc with rfl | hc
      · exact hrange
      · exact bare_of_digits hbase h c hc
  have hdrop : dropMarker base (0x30 :: letter :: digits) = digits := by
    unfold dropMarker
    rw [hletter]
    simp only [true_or, if_true]
    split
    · -- An underscore after the marker is no digit.
      exact absurd List.mem_cons_self (separator_notMem_digits hbase h)
    · rfl
  rw [read_of_dropMarker hbase h hbare hdrop hne named, if_neg]
  rintro ⟨hnone, -⟩
  rw [hletter] at hnone
  cases hnone

end Digits

end Numeral

end ElementLint
