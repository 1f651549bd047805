import ElementLint.Text.Basic

/-!
# Pieces of a text

A text is cut at every occurrence of a separator, or at the first one. Neither cut is described by the way
in which the text is read: `CutInto` says that the pieces hold no separator and that the text is made of
them with a separator between two, which can be done in one way only (`cutInto_iff`), and a cut at the first
occurrence leaves no separator before it.
-/

namespace ElementLint

namespace Text

theorem splitOn_ne_nil (sep : Nat) (t : Text) : splitOn sep t ≠ [] := by
  cases t with
  | nil => simp [splitOn]
  | cons c t =>
    rw [splitOn]
    split
    · simp
    · split <;> simp

theorem splitOn_cons_self (sep : Nat) (t : Text) :
    splitOn sep (sep :: t) = [] :: splitOn sep t := by
  obtain ⟨piece, rest, h⟩ := List.exists_cons_of_ne_nil (splitOn_ne_nil sep t)
  simp [splitOn, h]

theorem splitOn_cons_of_ne {sep c : Nat} {t piece : Text} {rest : List Text} (hc : c ≠ sep)
    (h : splitOn sep t = piece :: rest) : splitOn sep (c :: t) = (c :: piece) :: rest := by
  simp [splitOn, h, hc]

theorem joinWith_cons {sep t : Text} {rest : List Text} (h : rest ≠ []) :
    joinWith sep (t :: rest) = t ++ sep ++ joinWith sep rest := by
  cases rest with
  | nil => exact absurd rfl h
  | cons u rest => rfl

/-- A text is cut before and after a separator by itself. -/
theorem splitOn_append_cons (sep : Nat) (s t : Text) :
    splitOn sep (s ++ sep :: t) = splitOn sep s ++ splitOn sep t := by
  induction s with
  | nil => exact splitOn_cons_self sep t
  | cons c s ih =>
    by_cases hc : c = sep
    · rw [hc, List.cons_append, splitOn_cons_self, splitOn_cons_self, ih, List.cons_append]
    · obtain ⟨piece, rest, h⟩ := List.exists_cons_of_ne_nil (splitOn_ne_nil sep s)
      rw [h, List.cons_append] at ih
      rw [List.cons_append, splitOn_cons_of_ne hc ih, splitOn_cons_of_ne hc h, List.cons_append]

/-- A text without separators is one piece. -/
theorem splitOn_of_notMem {sep : Nat} {piece : Text} (h : sep ∉ piece) : splitOn sep piece = [piece] := by
  induction piece with
  | nil => rfl
  | cons c piece ih =>
    obtain ⟨hc, hpiece⟩ := not_or.1 (mt List.mem_cons.2 h)
    exact splitOn_cons_of_ne (Ne.symm hc) (ih hpiece)

/-- The pieces of a text hold no separator, and the text is the pieces with a separator between them. -/
structure CutInto (sep : Nat) (t : Text) (pieces : List Text) : Prop where
  nonempty : pieces ≠ []
  joined : joinWith [sep] pieces = t
  uncut : ∀ piece ∈ pieces, sep ∉ piece

theorem cutInto_splitOn (sep : Nat) (t : Text) : CutInto sep t (splitOn sep t) := by
  induction t with
  | nil => exact ⟨by simp [splitOn], rfl, by simp [splitOn]⟩
  | cons c t ih =>
    by_cases hc : c = sep
    · subst hc
      rw [splitOn_cons_self]
      refine ⟨List.cons_ne_nil _ _, ?_, ?_⟩
      · rw [joinWith_cons ih.nonempty, ih.joined]
        rfl
      · exact List.forall_mem_cons.2 ⟨List.not_mem_nil, ih.uncut⟩
    · obtain ⟨piece, rest, h⟩ := List.exists_cons_of_ne_nil ih.nonempty
      rw [h] at ih
      rw [splitOn_cons_of_ne hc h]
      obtain ⟨hpiece, hrest⟩ := List.forall_mem_cons.1 ih.uncut
      refine ⟨List.cons_ne_nil _ _, ?_, ?_⟩
      · rw [← ih.joined]
        cases rest <;> rfl
      · refine List.forall_mem_cons.2 ⟨?_, hrest⟩
        exact fun hmem => (List.mem_cons.1 hmem).elim (Ne.symm hc) hpiece

/-- A text is cut into pieces in one way only. -/
theorem cutInto_iff {sep : Nat} {t : Text} {pieces : List Text} :
    CutInto sep t pieces ↔ splitOn sep t = pieces := by
  constructor
  · rintro ⟨hne, rfl, huncut⟩
    induction pieces with
    | nil => exact absurd rfl hne
    | cons piece rest ih =>
      obtain ⟨hpiece, hrest⟩ := List.forall_mem_cons.1 huncut
      by_cases hnil : rest = []
      · subst hnil
        exact splitOn_of_notMem hpiece
      · rw [joinWith_cons hnil, List.append_assoc, List.singleton_append, splitOn_append_cons,
          splitOn_of_notMem hpiece, ih hnil hrest, List.singleton_append]
  · rintro rfl
    exact cutInto_splitOn sep t

theorem mem_of_mem_joinWith {sep piece : Text} {pieces : List Text} (h : piece ∈ pieces) {c : Nat}
    (hc : c ∈ piece) : c ∈ joinWith sep pieces := by
  induction pieces with
  | nil => cases h
  | cons first rest ih =>
    by_cases hnil : rest = []
    · subst hnil
      cases List.mem_singleton.1 h
      exact hc
    · rw [joinWith_cons hnil]
      rcases List.mem_cons.1 h with rfl | h
      · exact List.mem_append_left _ (List.mem_append_left _ hc)
      · exact List.mem_append_right _ (ih h)

/-- There is a piece more than there are separators. -/
theorem length_splitOn (sep : Nat) (t : Text) : (splitOn sep t).length = t.count sep + 1 := by
  induction t with
  | nil => rfl
  | cons c t ih =>
    by_cases hc : c = sep
    · subst hc
      rw [splitOn_cons_self, List.length_cons, ih, List.count_cons_self]
    · obtain ⟨piece, rest, h⟩ := List.exists_cons_of_ne_nil (splitOn_ne_nil sep t)
      rw [h, List.length_cons] at ih
      rw [splitOn_cons_of_ne hc h, List.length_cons, ih, List.count_cons_of_ne hc]

/-- A text is cut at the first occurrence of the separator. -/
theorem cutAt?_eq_some_iff {sep : Nat} {t before after : Text} :
    cutAt? sep t = some (before, after) ↔ t = before ++ sep :: after ∧ sep ∉ before := by
  induction t generalizing before with
  | nil => simp [cutAt?]
  | cons c t ih =>
    rw [cutAt?]
    by_cases hc : c = sep
    · rw [if_pos hc]
      constructor
      · intro h
        cases h
        exact ⟨by rw [hc, List.nil_append], List.not_mem_nil⟩
      · rintro ⟨h, hbefore⟩
        cases before with
        | nil =>
          cases h
          rfl
        | cons d before =>
          cases h
          exact absurd (hc ▸ List.mem_cons_self) hbefore
    · rw [if_neg hc, Option.map_eq_some_iff]
      constructor
      · rintro ⟨⟨u, v⟩, hcut, heq⟩
        cases heq
        obtain ⟨rfl, hu⟩ := ih.1 hcut
        exact ⟨rfl, fun hmem => (List.mem_cons.1 hmem).elim (Ne.symm hc) hu⟩
      · rintro ⟨h, hbefore⟩
        cases before with
        | nil =>
          cases h
          exact absurd rfl hc
        | cons d before =>
          cases h
          exact ⟨(before, after), ih.2 ⟨rfl, mt (List.mem_cons_of_mem _) hbefore⟩, rfl⟩

end Text

end ElementLint
