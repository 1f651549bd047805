import ElementLint.Tree.Problem

/-!
# Where problems stand

The problems of a tree are listed by position, and every position that a source gives counts from one.
-/

namespace ElementLint

namespace Problem

theorem pairwise_ofTree (s : Source) (root : Tree) :
    (ofTree s root).Pairwise fun p q => p.position.le q.position = true := by
  rw [ofTree]
  split
  · apply List.pairwise_mergeSort
    · exact fun _ _ _ => Position.le_trans
    · exact fun _ _ => Position.le_total _ _
  · exact List.Pairwise.nil

theorem one_le_column_of_at? {s : Source} {l : Label} {p : Problem} (h : at? s l = some p) :
    1 ≤ p.position.column := by
  rw [at?] at h
  split at h
  · cases h
    exact Nat.le_add_left 1 _
  · split at h
    · cases h
      exact Nat.le_add_left 1 _
    · cases h

theorem one_le_column_of_mem_inPending {s : Source} {pending : List Tree} {p : Problem}
    (h : p ∈ inPending s pending) : 1 ≤ p.position.column := by
  fun_induction inPending s pending with
  | case1 => cases h
  | case2 t rest q hq ih =>
    rcases List.mem_cons.1 h with rfl | h
    · exact one_le_column_of_at? hq
    · exact ih h
  | case3 t rest _ ih => exact ih h

theorem one_le_column_of_mem_ofTree {s : Source} {root : Tree} {p : Problem}
    (h : p ∈ ofTree s root) : 1 ≤ p.position.column := by
  rw [ofTree] at h
  split at h
  · exact one_le_column_of_mem_inPending (List.mem_mergeSort.1 h)
  · cases h

end Problem

end ElementLint
