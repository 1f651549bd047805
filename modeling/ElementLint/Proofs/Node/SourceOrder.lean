import ElementLint.Proofs.Node.Origins
import ElementLint.Proofs.Tree.Preorder

/-!
# The walk is in source order

If the children that conversion asks for by name stand in order, wherever conversion comes to, then the
origins of the nodes ascend. So the walk goes through trees of the source one after the other, as the
preorder lists them and none of them twice, and if the preorder never goes back in the text, neither do
the positions of the nodes. Both are said by `walk_in_source_order`.
-/

namespace ElementLint

namespace Tree

/-- The children that are asked for by name stand in order in every tree that conversion comes to. -/
def Ordered (t : Tree) : Prop := ∀ u, t.Reaches u → u.FieldsInOrder

theorem Ordered.operand {t : Tree} (h : t.Ordered) {o : Address × Tree} (ho : o ∈ t.operandsAt) :
    o.2.Ordered :=
  fun u hu => h u (.operand ho hu)

end Tree

namespace Node

/-- The origins ascend from one node to the next. -/
theorem pairwise_origins (v : View) {t : Tree} (h : t.Ordered) :
    (origins v t).Pairwise (· < ·) := by
  induction t using Tree.inductionOn with
  | step t ih =>
    have hsub := keptAt_sublist v t
    have hoperands : ((keptAt v t).flatMap fun o => (origins v o.2).map (o.1 ++ ·)).Pairwise
        (· < ·) := by
      rw [List.pairwise_flatMap]
      constructor
      · intro o ho
        have hoperand := hsub.subset ho
        rw [List.pairwise_map]
        apply (ih o.2 (Tree.size_lt_of_mem_operandsAt hoperand) (h.operand hoperand)).imp
        intro a b hab
        exact List.append_left_lt hab
      · apply ((Tree.pairwise_operandsAt_before (h t (.root t))).sublist hsub).imp
        intro o o' hbefore a ha a' ha'
        obtain ⟨b, -, rfl⟩ := List.mem_map.1 ha
        obtain ⟨b', -, rfl⟩ := List.mem_map.1 ha'
        exact hbefore b b'
    rw [origins_eq]
    split
    · exact hoperands
    · rw [List.singleton_append, List.pairwise_cons]
      refine ⟨?_, hoperands⟩
      intro a ha
      obtain ⟨o, ho, ha⟩ := List.mem_flatMap.1 ha
      obtain ⟨b, -, rfl⟩ := List.mem_map.1 ha
      obtain ⟨i, c, d, -, hi, -⟩ := Tree.exists_of_mem_operandsAt (hsub.subset ho)
      rw [hi]
      exact List.nil_lt_cons _ _

/-- A node is built from a tree if it is what the tree becomes, and stands where the tree starts. What the
parentheses around an expression become is built from the expression. -/
structure BuiltFrom (v : View) (t : Tree) (n : Node) : Prop where
  unwrapped : t.isWrapper = false
  convert : convert v t = .ok n
  pos : n.pos = v.locate t.label

theorem exists_builtFrom {v : View} {t : Tree} {as : List Address} {ns : List Node}
    (h : List.Forall₂ (ComesFrom v t) as ns) :
    ∃ os, os.map Prod.fst = as ∧ (∀ o ∈ os, t.at? o.1 = some o.2) ∧
      List.Forall₂ (fun o m => BuiltFrom v o.2 m) os ns := by
  induction h with
  | nil => exact ⟨[], rfl, nofun, .nil⟩
  | @cons a m as ns ha _ ih =>
    obtain ⟨s, hs, hwrapper, hm⟩ := ha
    obtain ⟨os, hos, hat, hbuilt⟩ := ih
    refine ⟨(a, s) :: os, by rw [List.map_cons, hos], List.forall_mem_cons.2 ⟨hs, hat⟩, ?_⟩
    exact .cons ⟨hwrapper, hm, (built_of_convert hwrapper hm).pos⟩ hbuilt

/-- The walk goes through nodes built from trees that the preorder lists in the same order. -/
theorem exists_sources {v : View} {limit : Nat} {t : Tree} {n : Node} (hordered : t.Ordered)
    (h : ofTree v limit t = .ok n) :
    ∃ os, os.Sublist t.occurrences ∧
      List.Forall₂ (fun o m => BuiltFrom v o.2 m) os ((n.walk 0).map Visit.node) := by
  obtain ⟨os, hos, hat, hbuilt⟩ := exists_builtFrom (forall₂_origins (convert_of_ofTree h))
  have hascend := pairwise_origins v hordered
  rw [← hos, List.pairwise_map] at hascend
  rw [map_node_walk]
  exact ⟨os, Tree.sublist_occurrences hat hascend, hbuilt⟩

/-- If the children that are asked for by name stand in order, the nodes that the walk visits are built
from trees that the preorder lists in the same order, each from another one. If moreover the preorder never
goes back in the text, the positions of the nodes never do, whatever bytes the text is made of. -/
theorem walk_in_source_order (limit : Nat) (t : Tree) (hordered : t.Ordered) :
    (∀ v n, ofTree v limit t = .ok n →
      ∃ os : List (Address × Tree), os.Sublist t.occurrences ∧ (os.map Prod.fst).Nodup ∧
        List.Forall₂ (fun o m => BuiltFrom v o.2 m) os ((n.walk 0).map Visit.node)) ∧
    (t.StartsInOrder → ∀ bytes n, ofTree (.ofSource (.ofBytes bytes)) limit t = .ok n →
      ((n.walk 0).map Visit.node).Pairwise fun m m' => m.pos.le m'.pos = true) := by
  constructor
  · intro v n h
    obtain ⟨os, hsub, hbuilt⟩ := exists_sources hordered h
    have hnodup := nodup_of_pairwise_lt ((Tree.pairwise_occurrences t).sublist hsub)
    exact ⟨os, hsub, hnodup, hbuilt⟩
  · intro hstarts bytes n h
    obtain ⟨os, hsub, hbuilt⟩ := exists_sources hordered h
    have hpos : ((n.walk 0).map Visit.node).map Node.pos =
        os.map fun o => (Source.ofBytes bytes).locate o.2.label := by
      rw [← List.forall₂_eq_eq_eq, List.forall₂_map_left_iff, List.forall₂_map_right_iff]
      exact (hbuilt.imp fun o m hm => hm.pos).flip
    rw [← List.pairwise_map (f := Node.pos) (R := fun p q => p.le q = true), hpos, List.pairwise_map]
    exact (hstarts.sublist hsub).imp fun h => Source.locate_le _ h

/-- The tree of `if ((a)) b; else /**/ f(c)`. -/
def elseTree : Tree :=
  .namedNode "program" 0 26 none [
    .namedNode "if_statement" 0 26 none [
      .token "if" 0 2,
      .namedNode "parenthesized_expression" 3 8 (some "condition") [
        .token "(" 3 4,
        .namedNode "parenthesized_expression" 4 7 none [
          .token "(" 4 5, .namedNode "identifier" 5 6 none [], .token ")" 6 7],
        .token ")" 7 8],
      .namedNode "expression_statement" 9 11 (some "consequence") [
        .namedNode "identifier" 9 10 none [], .token ";" 10 11],
      .namedNode "else_clause" 12 26 (some "alternative") [
        .token "else" 12 16,
        .namedNode "comment" 17 21 none [],
        .namedNode "expression_statement" 22 26 none [
          .namedNode "call_expression" 22 26 none [
            .namedNode "identifier" 22 23 (some "function") [],
            .namedNode "arguments" 23 26 (some "arguments") [
              .token "(" 23 24, .namedNode "identifier" 24 25 none [], .token ")" 25 26]]]]]]

def elseBytes : List UInt8 := Utf8.encode "if ((a)) b; else /**/ f(c)"

/-- The walk of a conditional with nested parentheses and a comment in its else clause. -/
theorem walk_in_source_order_else :
    elseTree.Ordered ∧ elseTree.StartsInOrder ∧
      ∃ n, ofTree (.ofSource (.ofBytes elseBytes)) maxDepth elseTree = .ok n ∧
        (∃ os : List (Address × Tree), os.Sublist elseTree.occurrences ∧ (os.map Prod.fst).Nodup ∧
          List.Forall₂ (fun o m => BuiltFrom (.ofSource (.ofBytes elseBytes)) o.2 m) os
            ((n.walk 0).map Visit.node)) ∧
        ((n.walk 0).map Visit.node).Pairwise fun m m' => m.pos.le m'.pos = true := by
  have hall : ∀ s ∈ elseTree.subtrees, s.FieldsInOrder := by decide
  have hordered : elseTree.Ordered := by
    intro u hu
    obtain ⟨a, ha⟩ := Tree.at?_of_reaches hu
    exact hall u (Tree.mem_subtrees_of_at? ha)
  have hstarts : elseTree.StartsInOrder := by decide
  obtain ⟨hsources, hpositions⟩ := walk_in_source_order maxDepth elseTree hordered
  refine ⟨hordered, hstarts, _, rfl, hsources _ _ rfl, hpositions hstarts elseBytes _ rfl⟩

end Node

end ElementLint
