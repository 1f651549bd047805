import Mathlib.Data.List.Forall2
import ElementLint.Proofs.Attempt
import ElementLint.Proofs.Order.StableSort
import ElementLint.Report.Insertion

/-!
# Sorting by insertion is stable

Where a comparison does not fail and tells which of two elements a transitive and total order puts
strictly first, `Insertion.sort` gives the stable sort. The comparison is asked about the elements of the
list only, so it may fail on all others.

The run at the start is sorted as it stands or read backwards, and each later element is inserted behind
all that it does not come before, which is where the stable sort puts an element at the end of a list.
-/

namespace ElementLint

namespace Insertion

open Attempt

variable {α ε : Type} {less : α → α → Except ε Bool} {le : α → α → Bool} {P : α → Prop}

theorem insertIdx_eq_take_drop {l : List α} {i : Nat} (h : i ≤ l.length) (x : α) :
    l.insertIdx i x = l.take i ++ x :: l.drop i := by
  induction l generalizing i with
  | nil =>
    obtain rfl : i = 0 := Nat.le_zero.1 h
    rfl
  | cons a l ih =>
    cases i with
    | zero => rfl
    | succ i => rw [List.insertIdx_succ_cons, ih (Nat.le_of_succ_le_succ h)]; rfl

theorem rel_of_pairwise {R : α → α → Prop} {l : List α} (h : l.Pairwise R) {i j : Nat} {a b : α}
    (hij : i < j) (ha : l[i]? = some a) (hb : l[j]? = some b) : R a b := by
  obtain ⟨hi, rfl⟩ := List.getElem?_eq_some_iff.1 ha
  obtain ⟨hj, rfl⟩ := List.getElem?_eq_some_iff.1 hb
  exact List.pairwise_iff_getElem.1 h i j hi hj hij

/-- A comparison tells which of two elements an order puts strictly first. It may fail on elements that do
not have the property. -/
structure Decides (less : α → α → Except ε Bool) (le : α → α → Bool) (P : α → Prop) : Prop where
  trans : ∀ a b c, le a b = true → le b c = true → le a c = true
  total : ∀ a b, (le a b || le b a) = true
  less_eq : ∀ a b, P a → P b → less a b = .ok (!le b a)

/-! ## Finding the place -/

section Sorted

variable (hless : Decides less le P) {l : List α} (hsorted : l.Pairwise fun a b => le a b = true)
  {x y z : α} {mid k : Nat} (hy : l[mid]? = some y) (hz : l[k]? = some z)
include hless hsorted hy hz

/-- What stands to the left of an element that is not after `x` is not after `x` either. -/
theorem le_of_le_middle (hyx : le y x = true) (hk : k ≤ mid) : le z x = true := by
  rcases Nat.lt_or_eq_of_le hk with hk | rfl
  · exact hless.trans z y x (rel_of_pairwise hsorted hk hz hy) hyx
  · cases hy.symm.trans hz
    exact hyx

/-- What stands to the right of an element that is after `x` is after `x` too. -/
theorem not_le_of_middle_le (hyx : le y x = false) (hk : mid ≤ k) : le z x = false := by
  rcases Nat.lt_or_eq_of_le hk with hk | rfl
  · by_contra hzx
    have hyz := rel_of_pairwise hsorted hk hy hz
    rw [hless.trans y z x hyz (by simpa using hzx)] at hyx
    cases hyx
  · cases hy.symm.trans hz
    exact hyx

end Sorted

/-- Between what is not after `x` and what is, there is one place, and halving finds it. -/
theorem exists_place (hless : Decides less le P) {sorted : Array α} {x : α} (hx : P x)
    (hP : ∀ y ∈ sorted.toList, P y) (hsorted : sorted.toList.Pairwise fun a b => le a b = true)
    {fuel lo hi : Nat} (hfuel : hi - lo < fuel) (hlo : lo ≤ hi) (hhi : hi ≤ sorted.size)
    (hbelow : ∀ k y, k < lo → sorted.toList[k]? = some y → le y x = true)
    (habove : ∀ k y, hi ≤ k → sorted.toList[k]? = some y → le y x = false) :
    ∃ i, place less sorted x fuel lo hi = .ok i ∧ i ≤ sorted.size ∧
      (∀ k y, k < i → sorted.toList[k]? = some y → le y x = true) ∧
      ∀ k y, i ≤ k → sorted.toList[k]? = some y → le y x = false := by
  induction fuel generalizing lo hi with
  | zero => omega
  | succ fuel ih =>
    rw [place]
    by_cases hend : hi ≤ lo
    · rw [if_pos hend]
      exact ⟨lo, rfl, by omega, hbelow, fun k y hk => habove k y (by omega)⟩
    · rw [if_neg hend]
      have hmid : lo + (hi - lo) / 2 < sorted.size := by omega
      generalize hm : lo + (hi - lo) / 2 = mid at hmid
      have hlom : lo ≤ mid := by omega
      have hmhi : mid < hi := by omega
      obtain ⟨y, hy⟩ : ∃ y, sorted.toList[mid]? = some y :=
        ⟨_, List.getElem?_eq_getElem (by simpa using hmid)⟩
      rw [← Array.getElem?_toList, hy]
      dsimp only
      rw [hless.less_eq x y hx (hP y (List.mem_of_getElem? hy)), ok_bind]
      cases hyx : le y x with
      | true =>
        refine ih (by omega) (by omega) hhi ?_ habove
        exact fun k z hk hz => le_of_le_middle hless hsorted hy hz hyx (Nat.le_of_lt_succ hk)
      | false =>
        refine ih (by omega) hlom (by omega) hbelow ?_
        exact fun k z hk hz => not_le_of_middle_le hless hsorted hy hz hyx hk

/-- Inserting an element into a sorted array gives what sorting gives with the element at the end. -/
theorem exists_insert (hless : Decides less le P) {sorted : Array α} {l : List α} {x : α}
    (hx : P x) (hl : ∀ y ∈ l, P y) (hsorted : sorted.toList = l.mergeSort le) :
    ∃ sorted', insert less sorted x = .ok sorted' ∧ sorted'.toList = (l ++ [x]).mergeSort le := by
  have hpairwise : sorted.toList.Pairwise fun a b => le a b = true := by
    rw [hsorted]
    exact List.pairwise_mergeSort hless.trans hless.total l
  have hP : ∀ y ∈ sorted.toList, P y := by
    rw [hsorted]
    exact fun y hy => hl y (List.mem_mergeSort.1 hy)
  obtain ⟨i, hplace, hi, hbelow, habove⟩ : ∃ i,
      place less sorted x (sorted.size + 1) 0 sorted.size = .ok i ∧ i ≤ sorted.size ∧
        (∀ k y, k < i → sorted.toList[k]? = some y → le y x = true) ∧
        ∀ k y, i ≤ k → sorted.toList[k]? = some y → le y x = false := by
    refine exists_place hless hx hP hpairwise (by omega) (Nat.zero_le _) le_rfl ?_ ?_
    · exact fun k y hk => absurd hk (Nat.not_lt_zero k)
    · intro k y hk hy
      rw [List.getElem?_eq_none (by simpa using hk)] at hy
      cases hy
  refine ⟨sorted.insertIdx i x hi, ?_, ?_⟩
  · rw [insert, hplace, ok_bind, Array.insertIdxIfInBounds, dif_pos hi]
    rfl
  · rw [Array.toList_insertIdx, insertIdx_eq_take_drop (by simpa using hi), eq_comm]
    apply mergeSort_append_singleton hless.trans hless.total x
    · rw [List.take_append_drop, hsorted]
    · intro b hb
      obtain ⟨k, hk, rfl⟩ := List.mem_take_iff_getElem.1 hb
      exact hbelow k _ (by omega) (List.getElem?_eq_getElem _)
    · intro b hb
      obtain ⟨k, hk, rfl⟩ := List.mem_drop_iff_getElem.1 hb
      exact habove (i + k) _ (by omega) (List.getElem?_eq_getElem _)

theorem exists_foldlM_insert (hless : Decides less le P) {sorted : Array α} {l rest : List α}
    (hl : ∀ y ∈ l, P y) (hrest : ∀ y ∈ rest, P y) (hsorted : sorted.toList = l.mergeSort le) :
    ∃ sorted', rest.foldlM (insert less) sorted = .ok sorted' ∧
      sorted'.toList = (l ++ rest).mergeSort le := by
  induction rest generalizing sorted l with
  | nil => exact ⟨sorted, rfl, by rw [List.append_nil, hsorted]⟩
  | cons x rest ih =>
    obtain ⟨hx, hrest⟩ := List.forall_mem_cons.1 hrest
    obtain ⟨next, hnext, hnextSorted⟩ := exists_insert hless hx hl hsorted
    obtain ⟨sorted', hfold, hsorted'⟩ :=
      ih (List.forall_mem_append.2 ⟨hl, List.forall_mem_singleton.2 hx⟩) hrest hnextSorted
    refine ⟨sorted', ?_, ?_⟩
    · rw [List.foldlM_cons, hnext, ok_bind, hfold]
    · rw [hsorted', List.append_assoc, List.singleton_append]

/-! ## The run at the start -/

/-- Whether one element may stand to the left of another one in the run, which is kept newest first. -/
def InRun (le : α → α → Bool) (falling : Bool) (a b : α) : Prop := le b a = !falling

theorem InRun.trans (hless : Decides less le P) {falling : Bool} {a b c : α} (h : InRun le falling a b)
    (h' : InRun le falling b c) : InRun le falling a c := by
  unfold InRun at *
  cases falling with
  | false => exact hless.trans c b a h' h
  | true =>
    rw [Bool.not_true] at *
    by_contra hca
    have hab : le a b = true := by simpa [h] using hless.total a b
    rw [hless.trans c a b (by simpa using hca) hab] at h'
    cases h'

/-- The run takes elements from the list as long as they go on in the same direction. -/
theorem exists_runFrom (hless : Decides less le P) {falling : Bool} {last : α}
    {run rest : List α} (hrun : (last :: run).Pairwise (InRun le falling)) (hlast : P last)
    (hrest : ∀ y ∈ rest, P y) :
    ∃ run' rest', runFrom less falling last run rest = .ok (run', rest') ∧
      run'.reverse ++ rest' = (last :: run).reverse ++ rest ∧ run'.Pairwise (InRun le falling) := by
  induction rest generalizing last run with
  | nil => exact ⟨last :: run, [], rfl, rfl, hrun⟩
  | cons x rest ih =>
    obtain ⟨hx, hrest'⟩ := List.forall_mem_cons.1 hrest
    rw [runFrom, hless.less_eq x last hx hlast, ok_bind]
    by_cases hnext : InRun le falling x last
    · have hgoes : ((!le last x) == falling) = true := by rw [hnext]; cases falling <;> rfl
      rw [if_pos hgoes]
      have hlonger : (x :: last :: run).Pairwise (InRun le falling) := by
        refine List.pairwise_cons.2 ⟨List.forall_mem_cons.2 ⟨hnext, fun b hb => ?_⟩, hrun⟩
        exact hnext.trans hless ((List.pairwise_cons.1 hrun).1 b hb)
      obtain ⟨run', rest', hfrom, hcut, hrun'⟩ := ih hlonger hx hrest'
      refine ⟨run', rest', hfrom, ?_, hrun'⟩
      rw [hcut, List.reverse_cons, List.append_assoc, List.singleton_append]
    · have hstops : ¬((!le last x) == falling) = true := by
        intro h
        apply hnext
        rw [InRun, ← beq_iff_eq.1 h, Bool.not_not]
      rw [if_neg hstops]
      exact ⟨last :: run, x :: rest, rfl, rfl, hrun⟩

/-- A falling run read backwards is sorted, and its elements are all different in the order. -/
theorem mergeSort_reverse_of_falling (hless : Decides less le P) {run : List α}
    (hrun : run.Pairwise (InRun le true)) : run.reverse.mergeSort le = run := by
  induction run with
  | nil => exact List.mergeSort_nil
  | cons x run ih =>
    obtain ⟨hx, hrun⟩ := List.pairwise_cons.1 hrun
    rw [List.reverse_cons]
    exact mergeSort_append_singleton hless.trans hless.total x ((ih hrun).trans (List.nil_append run).symm)
      (List.forall_mem_nil _) hx

theorem mergeSort_reverse_of_rising {run : List α} (hrun : run.Pairwise (InRun le false)) :
    run.reverse.mergeSort le = run.reverse :=
  List.mergeSort_of_pairwise (List.pairwise_reverse.2 hrun)

/-- Sorting by insertion is the stable sort. -/
theorem sort_eq_mergeSort (hless : Decides less le P) {l : List α} (hl : ∀ a ∈ l, P a) :
    sort less l = .ok (l.mergeSort le) := by
  match l with
  | [] => rw [sort, List.mergeSort_nil]; exact fun _ _ _ => nofun
  | [x] => rw [sort, List.mergeSort_singleton]; exact fun _ _ _ => nofun
  | x :: y :: rest =>
    obtain ⟨hx, hy, hrest⟩ : P x ∧ P y ∧ ∀ a ∈ rest, P a := by simpa using hl
    have hpair : [y, x].Pairwise (InRun le (!le x y)) :=
      List.pairwise_pair.2 (Bool.not_not _).symm
    obtain ⟨run, rest', hfrom, hcut, hrun⟩ := exists_runFrom hless hpair hy hrest
    obtain ⟨hrunP, hrestP⟩ : (∀ a ∈ run.reverse, P a) ∧ ∀ a ∈ rest', P a := by
      rw [← List.forall_mem_append, hcut]
      exact hl
    have hsorted : (if !le x y then run else run.reverse).toArray.toList = run.reverse.mergeSort le := by
      cases hfalling : !le x y with
      | false =>
        rw [hfalling] at hrun
        exact (mergeSort_reverse_of_rising hrun).symm
      | true =>
        rw [hfalling] at hrun
        exact (mergeSort_reverse_of_falling hless hrun).symm
    obtain ⟨sorted, hfold, hall⟩ := exists_foldlM_insert hless hrunP hrestP hsorted
    rw [sort, hless.less_eq y x hy hx, ok_bind, hfrom, ok_bind]
    dsimp only
    rw [hfold, ok_bind, hall, hcut]
    rfl

end Insertion

end ElementLint
