import Mathlib.Data.List.Sort
import Mathlib.Data.List.Perm.Subperm
import ElementLint.Proofs.Tree.Operands
import ElementLint.Proofs.Tree.Source

/-!
# The preorder of a concrete tree

`occurrences` lists every node of a tree together with its address, each before those below it. The
addresses ascend (`pairwise_occurrences`), so whatever is picked from a tree in ascending order is a
sublist of its preorder (`sublist_occurrences`).

Conversion asks for some children by their field names and puts what becomes of them in an order of its
own. `FieldsInOrder` says that the children stand in this order, and then the operands ascend as well
(`pairwise_operandsAt_before`).
-/

namespace ElementLint

namespace Tree

mutual

/-- The nodes of a tree with their addresses, each before those below it. -/
def occurrences : Tree → List (Address × Tree)
  | .node label children => ([], .node label children) :: occurrencesFrom 0 children

/-- The nodes of some trees, which are the children from the place `i` on. -/
def occurrencesFrom (i : Nat) : List Tree → List (Address × Tree)
  | [] => []
  | t :: ts => under i (occurrences t) ++ occurrencesFrom (i + 1) ts

end

theorem occurrencesFrom_eq (i : Nat) (ts : List Tree) :
    occurrencesFrom i ts = (ts.zipIdx i).flatMap fun c => under c.2 c.1.occurrences := by
  induction ts generalizing i with
  | nil => rfl
  | cons t ts ih => rw [occurrencesFrom, ih, List.zipIdx_cons, List.flatMap_cons]

theorem occurrences_eq (t : Tree) :
    t.occurrences = ([], t) :: t.children.zipIdx.flatMap fun c => under c.2 c.1.occurrences := by
  cases t
  rw [occurrences, occurrencesFrom_eq, children_node]

theorem mem_under {i : Nat} {os : List (Address × Tree)} {o : Address × Tree} :
    o ∈ under i os ↔ ∃ a, o.1 = i :: a ∧ (a, o.2) ∈ os := by
  rw [under, List.mem_map]
  constructor
  · rintro ⟨p, hp, rfl⟩
    exact ⟨p.1, rfl, hp⟩
  · rintro ⟨a, ha, hmem⟩
    exact ⟨(a, o.2), hmem, by rw [← ha]⟩

/-- The occurrences are what the addresses reach. -/
theorem mem_occurrences {t s : Tree} {a : Address} : (a, s) ∈ t.occurrences ↔ t.at? a = some s := by
  induction a generalizing t with
  | nil =>
    rw [occurrences_eq, at?_nil, Option.some.injEq]
    simp [mem_under, eq_comm]
  | cons i a ih =>
    rw [occurrences_eq, at?_cons, Option.bind_eq_some_iff]
    simp [mem_under, ih, List.mem_zipIdx_iff_getElem?]

/-- The addresses of the occurrences ascend, so that each is listed once. -/
theorem pairwise_occurrences (t : Tree) : t.occurrences.Pairwise fun o o' => o.1 < o'.1 := by
  induction t using inductionOn with
  | step t ih =>
    rw [occurrences_eq, List.pairwise_cons, List.pairwise_flatMap]
    refine ⟨?_, ?_, ?_⟩
    · intro o ho
      obtain ⟨c, -, ho⟩ := List.mem_flatMap.1 ho
      obtain ⟨a, ha, -⟩ := mem_under.1 ho
      rw [ha]
      exact List.nil_lt_cons _ _
    · intro c hc
      rw [under, List.pairwise_map]
      apply (ih c.1 (size_lt_of_mem_children (List.fst_mem_of_mem_zipIdx hc))).imp
      intro o o' h
      exact List.cons_lt_cons_iff.2 (.inr ⟨rfl, h⟩)
    · apply (pairwise_lt_zipIdx t.children).imp
      intro c c' h o ho o' ho'
      obtain ⟨a, ha, -⟩ := mem_under.1 ho
      obtain ⟨a', ha', -⟩ := mem_under.1 ho'
      rw [ha, ha']
      exact List.cons_lt_cons_iff.2 (.inl h)

/-- Trees of a tree that are listed with ascending addresses are listed as the preorder lists them. -/
theorem sublist_occurrences {t : Tree} {os : List (Address × Tree)}
    (hat : ∀ o ∈ os, t.at? o.1 = some o.2) (h : os.Pairwise fun o o' => o.1 < o'.1) :
    os.Sublist t.occurrences := by
  have hantisymm : Std.Antisymm fun o o' : Address × Tree => o.1 < o'.1 :=
    ⟨fun _ _ h h' => absurd h' (List.lt_asymm h)⟩
  have hsubset : os ⊆ t.occurrences := fun o ho => mem_occurrences.2 (hat o ho)
  have hnodup : os.Nodup := (nodup_of_pairwise_lt h).of_map
  exact List.sublist_of_subperm_of_pairwise (hnodup.subperm hsubset) h (pairwise_occurrences t)

/-- The nodes of a tree start one after the other: none starts before one that the preorder lists
earlier. -/
def StartsInOrder (t : Tree) : Prop :=
  t.occurrences.Pairwise fun o o' => o.2.label.StartsBy o'.2.label

instance (t : Tree) : Decidable t.StartsInOrder :=
  inferInstanceAs (Decidable (List.Pairwise _ _))

/-! ## Fields in order -/

/-- The children that conversion asks for by their field names stand in the order in which the nodes made
of them become children. -/
def FieldsInOrder (t : Tree) : Prop :=
  ((fetched t.form).filterMap t.place?).Pairwise (· < ·)

instance (t : Tree) : Decidable t.FieldsInOrder := inferInstanceAs (Decidable (List.Pairwise _ _))

end Tree

/-- An address that comes before another one, and so do all that go on from it. -/
def Address.Before (a b : Address) : Prop := ∀ c d : Address, a ++ c < b ++ d

theorem Address.before_of_lt {i j : Nat} (h : i < j) (a b : Address) :
    Address.Before (i :: a) (j :: b) := by
  intro c d
  exact List.cons_lt_cons_iff.2 (.inl h)

theorem Address.inherited_before : Address.Inherited Address.Before where
  siblings h a b := Address.before_of_lt h a b
  cons h _ c d := List.cons_lt_cons_iff.2 (.inr ⟨rfl, h c d⟩)

namespace Tree

/-- The operands ascend if the children that are asked for by name stand in order. -/
theorem pairwise_operandsAt_before {t : Tree} (h : t.FieldsInOrder) :
    t.operandsAt.Pairwise fun o o' => Address.Before o.1 o'.1 := by
  apply pairwise_operandsAt_of Address.inherited_before
  apply (List.pairwise_filterMap.1 h).imp
  intro name name' hname i hi j hj a b
  exact Address.before_of_lt (hname i hi j hj) a b

end Tree

end ElementLint
