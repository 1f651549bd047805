import Mathlib.Data.List.Sort

/-!
# Stable sorting

Reports and items are sorted by keys that several of them may share, so what is known of the order
comes from the stability of the sort. `filter_mergeSort` says it in the form in which it is used: to
leave something out before sorting is the same as to leave it out afterwards. The order is given as a
Boolean test that is transitive and total; two different elements may come before each other.
-/

namespace ElementLint

section

variable {α : Type*} {le : α → α → Bool}

/-- A list is cut in one way only between the elements that `a` does not come before and those that it
comes before. -/
theorem eq_of_append_eq_append_of_le (a : α) {l₁ l₂ m₁ m₂ : List α} (h : l₁ ++ l₂ = m₁ ++ m₂)
    (hl₁ : ∀ b ∈ l₁, le a b = false) (hl₂ : ∀ b ∈ l₂, le a b = true)
    (hm₁ : ∀ b ∈ m₁, le a b = false) (hm₂ : ∀ b ∈ m₂, le a b = true) :
    l₁ = m₁ ∧ l₂ = m₂ := by
  rcases List.append_eq_append_iff.1 h with ⟨c, rfl, rfl⟩ | ⟨c, rfl, rfl⟩
  · cases c with
    | nil => simp
    | cons b c =>
      have hfalse := hm₁ b (by simp)
      have htrue := hl₂ b (by simp)
      simp [hfalse] at htrue
  · cases c with
    | nil => simp
    | cons b c =>
      have hfalse := hl₁ b (by simp)
      have htrue := hm₂ b (by simp)
      simp [hfalse] at htrue

/-- Sorting and leaving out commute. -/
theorem filter_mergeSort (trans : ∀ a b c, le a b = true → le b c = true → le a c = true)
    (total : ∀ a b, (le a b || le b a) = true) (p : α → Bool) (l : List α) :
    (l.mergeSort le).filter p = (l.filter p).mergeSort le := by
  -- The head of the list goes to the place before the first element that it comes before; the
  -- elements that are left out do not move that place.
  induction l with
  | nil => simp
  | cons a l ih =>
    obtain ⟨l₁, l₂, hal, hl, hlt⟩ := List.mergeSort_cons trans total a l
    have hsorted := List.pairwise_mergeSort trans total (a :: l)
    rw [hal, List.pairwise_append] at hsorted
    rw [hl, List.filter_append] at ih
    rw [hal, List.filter_append]
    cases hp : p a with
    | false => rw [List.filter_cons_of_neg (by simp [hp]), List.filter_cons_of_neg (by simp [hp]), ih]
    | true =>
      rw [List.filter_cons_of_pos hp, List.filter_cons_of_pos hp]
      obtain ⟨m₁, m₂, ham, hm, hmt⟩ := List.mergeSort_cons trans total a (l.filter p)
      have hsorted' := List.pairwise_mergeSort trans total (a :: l.filter p)
      rw [ham, List.pairwise_append] at hsorted'
      obtain ⟨h₁, h₂⟩ := eq_of_append_eq_append_of_le a (ih.trans hm)
        (fun b hb => by simpa using hlt b (List.mem_of_mem_filter hb))
        (fun b hb => (List.pairwise_cons.1 hsorted.2.1).1 b (List.mem_of_mem_filter hb))
        (fun b hb => by simpa using hmt b hb)
        (fun b hb => (List.pairwise_cons.1 hsorted'.2.1).1 b hb)
      rw [ham, h₁, h₂]

/-- Elements that may stand in any order among each other stay in the order in which they were. -/
theorem filter_mergeSort_of_tied (trans : ∀ a b c, le a b = true → le b c = true → le a c = true)
    (total : ∀ a b, (le a b || le b a) = true) {p : α → Bool}
    (htied : ∀ a b, p a = true → p b = true → le a b = true) (l : List α) :
    (l.mergeSort le).filter p = l.filter p := by
  rw [filter_mergeSort trans total]
  apply List.mergeSort_of_pairwise
  refine List.Pairwise.imp_of_mem (R := fun _ _ => True) ?_ (List.pairwise_of_forall fun _ _ => trivial)
  intro a b ha hb _
  exact htied a b (List.of_mem_filter ha) (List.of_mem_filter hb)

/-- An element at the end of a list is sorted in behind all that it does not come before. -/
theorem mergeSort_append_singleton (trans : ∀ a b c, le a b = true → le b c = true → le a c = true)
    (total : ∀ a b, (le a b || le b a) = true) (x : α) {l l₁ l₂ : List α}
    (hl : l.mergeSort le = l₁ ++ l₂) (h₁ : ∀ b ∈ l₁, le b x = true) (h₂ : ∀ b ∈ l₂, le b x = false) :
    (l ++ [x]).mergeSort le = l₁ ++ x :: l₂ := by
  -- The head of the list keeps its place among the others, and `x` goes to the left of it or to the right.
  induction l generalizing l₁ l₂ with
  | nil =>
    obtain ⟨rfl, rfl⟩ := List.append_eq_nil_iff.1 (hl.symm.trans List.mergeSort_nil)
    exact List.mergeSort_singleton x
  | cons a l ih =>
    obtain ⟨m₁, m₂, hal, hm, hbefore⟩ := List.mergeSort_cons trans total a l
    obtain ⟨k₁, k₂, halx, hk, hbefore'⟩ := List.mergeSort_cons trans total a (l ++ [x])
    have hsorted := List.pairwise_mergeSort trans total (a :: l)
    have hsorted' := List.pairwise_mergeSort trans total (a :: (l ++ [x]))
    rw [hal, List.pairwise_append, List.pairwise_cons] at hsorted
    rw [halx, List.pairwise_append, List.pairwise_cons] at hsorted'
    have hafter := hsorted.2.1.1
    have hnot : ∀ b ∈ m₁, le a b = false := fun b hb => by simpa using hbefore b hb
    have hunique {n₁ n₂ : List α} (hn : (l ++ [x]).mergeSort le = n₁ ++ n₂)
        (hn₁ : ∀ b ∈ n₁, le a b = false) (hn₂ : ∀ b ∈ n₂, le a b = true) :
        (a :: l ++ [x]).mergeSort le = n₁ ++ a :: n₂ := by
      obtain ⟨rfl, rfl⟩ := eq_of_append_eq_append_of_le a (hk.symm.trans hn)
        (fun b hb => by simpa using hbefore' b hb) hsorted'.2.1.1 hn₁ hn₂
      exact halx
    have hcut : (∃ c, m₁ = l₁ ++ c ∧ l₂ = c ++ a :: m₂) ∨ ∃ c, l₁ = m₁ ++ a :: c ∧ m₂ = c ++ l₂ := by
      rcases List.append_eq_append_iff.1 (hal.symm.trans hl) with ⟨c, hc, hrest⟩ | h
      · rcases List.cons_eq_append_iff.1 hrest with ⟨rfl, hl₂⟩ | ⟨c, rfl, hm₂⟩
        · exact .inl ⟨[], by simpa using hc.symm, hl₂⟩
        · exact .inr ⟨c, hc, hm₂⟩
      · exact .inl h
    rcases hcut with ⟨c, rfl, rfl⟩ | ⟨c, rfl, rfl⟩
    · obtain ⟨hc₂, hax⟩ := List.forall_mem_append.1 h₂
      obtain ⟨hl₁, hc⟩ := List.forall_mem_append.1 hnot
      have hlx := ih (hm.trans (List.append_assoc l₁ c m₂)) h₁
        (List.forall_mem_append.2 ⟨hc₂, (List.forall_mem_cons.1 hax).2⟩)
      rw [← List.cons_append, ← List.append_assoc] at hlx
      have h := hunique hlx
        (List.forall_mem_append.2 ⟨hl₁, List.forall_mem_cons.2 ⟨(List.forall_mem_cons.1 hax).1, hc⟩⟩) hafter
      rw [h, List.append_assoc, List.cons_append]
    · obtain ⟨hm₁, hax⟩ := List.forall_mem_append.1 h₁
      obtain ⟨hc, hl₂⟩ := List.forall_mem_append.1 hafter
      have hlx := ih (hm.trans (List.append_assoc m₁ c l₂).symm)
        (List.forall_mem_append.2 ⟨hm₁, (List.forall_mem_cons.1 hax).2⟩) h₂
      rw [List.append_assoc] at hlx
      have h := hunique hlx hnot
        (List.forall_mem_append.2 ⟨hc, List.forall_mem_cons.2 ⟨(List.forall_mem_cons.1 hax).1, hl₂⟩⟩)
      rw [h, List.append_assoc, List.cons_append]

/-- Of a list in order those elements stand at the end that come before no other. -/
theorem filter_append_filter_of_pairwise {p : α → Bool} {l : List α}
    (hsorted : l.Pairwise fun a b => le a b = true)
    (hlast : ∀ a ∈ l, ∀ b ∈ l, p a = true → p b = false → le a b = false) :
    l.filter (!p ·) ++ l.filter p = l := by
  induction l with
  | nil => rfl
  | cons a l ih =>
    obtain ⟨ha, hl⟩ := List.pairwise_cons.1 hsorted
    have hrest := ih hl fun b hb c hc =>
      hlast b (List.mem_cons_of_mem a hb) c (List.mem_cons_of_mem a hc)
    cases hp : p a with
    | false => simp [hp, hrest]
    | true =>
      -- What comes after `a` is of its kind.
      have hall : ∀ b ∈ l, p b = true := by
        intro b hb
        by_contra hpb
        have hle := hlast a List.mem_cons_self b (List.mem_cons_of_mem a hb) hp
          (Bool.eq_false_of_not_eq_true hpb)
        rw [ha b hb] at hle
        cases hle
      have hnone : l.filter (!p ·) = [] :=
        List.filter_eq_nil_iff.2 fun b hb => by simp [hall b hb]
      simp [hp, hnone, List.filter_eq_self.2 hall]

end

end ElementLint
