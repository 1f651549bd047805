import ElementLint.Node.Listing
import ElementLint.Proofs.Attempt
import ElementLint.Proofs.Node.Address

/-!
# Ancestors in a walk

A visit holds a link to its parent: the place of the parent's visit, or what was given for the root.
`LinkedAt` says which link belongs to an address, and `Climbs` follows links from one visit up to the next.

The walk keeps the nodes that are still to be visited in a list, in which the children of many nodes stand
side by side. What a step keeps is said by `WalkState`: visited and pending nodes make up the occurrences of
the tree, and every pending node has the link that belongs to its address. So the walk visits the
occurrences in order and links each to its parent, and whoever climbs from a node comes by all the nodes
above it and no others. A listing shows the nearest three of them.
-/

namespace ElementLint

/-- The addresses of the nodes above an address, the nearest first. -/
def Address.above : Address → List Address
  | [] => []
  | i :: a => (above a).map (i :: ·) ++ [[]]

theorem Address.above_concat (a : Address) (i : Nat) : above (a ++ [i]) = a :: above a := by
  induction a with
  | nil => rfl
  | cons j a ih => rw [List.cons_append, above, ih, List.map_cons, List.cons_append, above]

theorem Address.length_above (a : Address) : (above a).length = a.length := by
  induction a with
  | nil => rfl
  | cons i a ih => rw [above, List.length_append, List.length_map, ih, List.length_singleton,
      List.length_cons]

/-- From a link one climbs by the visits at some places, each the parent of the one before, and comes to a
last link. -/
inductive Climbs (visits : List Visit) : Option Nat → List Nat → Option Nat → Prop
  | stop (link : Option Nat) : Climbs visits link [] link
  | up {place : Nat} {v : Visit} {places : List Nat} {last : Option Nat} :
      visits[place]? = some v → Climbs visits v.parent places last →
        Climbs visits (some place) (place :: places) last

/-- The nearest ancestors are those by which one climbs, and then those from the last link on. -/
theorem ancestorKinds_of_climbs {visits : List Visit} {link last : Option Nat} {places : List Nat}
    (h : Climbs visits link places last) (limit : Nat) :
    ancestorKinds visits.toArray limit link =
      ((places.filterMap (visits[·]?)).map (·.node.kind)).take limit ++
        ancestorKinds visits.toArray (limit - places.length) last := by
  induction h generalizing limit with
  | stop link => simp
  | @up place v places last hv _ ih =>
    cases limit with
    | zero => simp [ancestorKinds]
    | succ limit =>
      rw [ancestorKinds, List.getElem?_toArray, hv, List.filterMap_cons_some hv]
      dsimp only
      rw [ih, List.map_cons, List.take_succ_cons, List.length_cons, Nat.add_sub_add_right,
        List.cons_append]

namespace Node

/-- The nodes above an address, the nearest first. -/
def nodesAbove (root : Node) (a : Address) : List Node := (Address.above a).filterMap root.at?

/-- The visit at place `k` of a walk has the link that belongs to its address: the root has the link that
was given for it, and any other node the place of the earlier occurrence in whose slot it stands. -/
inductive LinkedAt (root : Node) (start : Nat) (parent : Option Nat) (k : Nat) : Address → Visit → Prop
  | root : LinkedAt root start parent k [] ⟨root, parent⟩
  | child {j i : Nat} {b : Address} {p m : Node} :
      j < k → root.occurrences[j]? = some (b, p) → p.slot? i = some m →
        LinkedAt root start parent k (b ++ [i]) ⟨m, some (start + j)⟩

theorem LinkedAt.mono {root : Node} {start k l : Nat} {parent : Option Nat} {a : Address} {v : Visit}
    (h : LinkedAt root start parent k a v) (hkl : k ≤ l) : LinkedAt root start parent l a v := by
  cases h with
  | root => exact .root
  | child hj hp hm => exact .child (Nat.lt_of_lt_of_le hj hkl) hp hm

theorem LinkedAt.exists_parent {root m : Node} {start k i : Nat} {parent link : Option Nat}
    {a b : Address} (h : LinkedAt root start parent k a ⟨m, link⟩) (hab : a = b ++ [i]) :
    ∃ j p, j < k ∧ root.occurrences[j]? = some (b, p) ∧ p.slot? i = some m ∧
      link = some (start + j) := by
  cases h with
  | root => exact absurd hab.symm (by simp)
  | @child j i' b' p _ hj hp hm =>
    obtain ⟨rfl, hi⟩ := List.append_inj' hab rfl
    cases hi
    exact ⟨j, p, hj, hp, hm, rfl⟩

/-- The children of a node at an address, as they are put before what is pending. -/
def childVisits (a : Address) (n : Node) (link : Option Nat) : List (Address × Visit) :=
  n.slots.zipIdx.flatMap fun s => s.1.toList.map fun m => (a ++ [s.2], ⟨m, link⟩)

theorem map_snd_childVisits (a : Address) (n : Node) (link : Option Nat) :
    (childVisits a n link).map Prod.snd = n.children.map (Visit.mk · link) := by
  have hslot (s : Option Node × Nat) :
      (s.1.toList.map fun m => (a ++ [s.2], (⟨m, link⟩ : Visit))).map Prod.snd =
        s.1.toList.flatMap fun m => [⟨m, link⟩] := by
    rcases s with ⟨_ | m, i⟩ <;> rfl
  rw [childVisits, List.map_flatMap]
  simp only [hslot]
  rw [flatMap_zipIdx_slots, children, List.map_eq_flatMap]

theorem mem_childVisits {a b : Address} {n : Node} {link : Option Nat} {v : Visit}
    (h : (b, v) ∈ childVisits a n link) :
    ∃ i m, n.slot? i = some m ∧ b = a ++ [i] ∧ v = ⟨m, link⟩ := by
  obtain ⟨⟨s, i⟩, hs, hv⟩ := List.mem_flatMap.1 h
  obtain ⟨m, hm, hv⟩ := List.mem_map.1 hv
  cases hv
  rw [Option.mem_toList] at hm
  cases hm
  exact ⟨i, m, slot?_eq_some_iff.2 (List.mk_mem_zipIdx_iff_getElem?.1 hs), rfl, rfl⟩

/-- The occurrences below a node that stands at an address. -/
def occurrencesAt (w : Address × Visit) : List (Address × Node) :=
  w.2.node.occurrences.map fun o => (w.1 ++ o.1, o.2)

theorem occurrencesAt_eq (a : Address) (v : Visit) (link : Option Nat) :
    occurrencesAt (a, v) = (a, v.node) :: (childVisits a v.node link).flatMap occurrencesAt := by
  have hslot (s : Option Node × Nat) :
      (occurrencesIn s).map (fun o => (a ++ o.1, o.2)) =
        (s.1.toList.map fun m => (a ++ [s.2], (⟨m, link⟩ : Visit))).flatMap occurrencesAt := by
    rcases s with ⟨_ | m, i⟩ <;> simp [occurrencesIn, occurrencesAt]
  -- The link plays no part for the occurrences, so any will do.
  rw [occurrencesAt, occurrences_eq, List.map_cons, List.append_nil, childVisits, List.map_flatMap,
    List.flatMap_assoc]
  simp only [hslot]

/-- What the walk of a tree keeps: the visited nodes and all that stands below the pending ones make up
the occurrences, and every pending node has the link that belongs to its address. -/
structure WalkState (root : Node) (start : Nat) (parent : Option Nat) (done : List (Address × Node))
    (pending : List (Address × Visit)) : Prop where
  ahead : done ++ pending.flatMap occurrencesAt = root.occurrences
  linked : ∀ w ∈ pending, LinkedAt root start parent done.length w.1 w.2

namespace WalkState

variable {root : Node} {start : Nat} {parent : Option Nat} {done : List (Address × Node)}
  {pending : List (Address × Visit)} {a : Address} {v : Visit}

theorem initial (root : Node) (start : Nat) (parent : Option Nat) :
    WalkState root start parent [] [([], ⟨root, parent⟩)] where
  ahead := by simp [occurrencesAt]
  linked w hw := by
    cases List.mem_singleton.1 hw
    exact .root

/-- The next node to be visited is the next occurrence. -/
theorem getElem?_next (h : WalkState root start parent done ((a, v) :: pending)) :
    root.occurrences[done.length]? = some (a, v.node) := by
  rw [← h.ahead, List.flatMap_cons, occurrencesAt_eq a v none, List.cons_append,
    List.getElem?_append_right (Nat.le_refl _), Nat.sub_self]
  rfl

/-- A step visits the next node and puts its children before what is pending. -/
theorem step (h : WalkState root start parent done ((a, v) :: pending)) :
    WalkState root start parent (done ++ [(a, v.node)])
      (childVisits a v.node (some (start + done.length)) ++ pending) where
  ahead := by
    rw [← h.ahead, List.flatMap_cons, occurrencesAt_eq a v (some (start + done.length)),
      List.flatMap_append]
    simp
  linked w hw := by
    have hlength : (done ++ [(a, v.node)]).length = done.length + 1 := List.length_append
    rw [hlength]
    rcases List.mem_append.1 hw with hw | hw
    · obtain ⟨i, m, hm, hb, hv⟩ := mem_childVisits hw
      rw [hb, hv]
      exact .child (Nat.lt_succ_self _) h.getElem?_next hm
    · exact (h.linked w (List.mem_cons_of_mem _ hw)).mono (Nat.le_succ _)

/-- The walk from a state on visits the occurrences that are left, each with the link that belongs to its
address. -/
theorem run (h : WalkState root start parent done pending) {k : Nat}
    (hv : (walkPending (start + done.length) (pending.map Prod.snd))[k]? = some v) :
    ∃ b, root.occurrences[done.length + k]? = some (b, v.node) ∧
      LinkedAt root start parent (done.length + k) b v := by
  induction k generalizing done pending with
  | zero =>
    match pending with
    | [] => simp [walkPending_nil] at hv
    | (b, u) :: pending =>
      rw [List.map_cons, walkPending_cons] at hv
      cases hv
      exact ⟨b, h.getElem?_next, h.linked _ List.mem_cons_self⟩
  | succ k ih =>
    match pending with
    | [] => simp [walkPending_nil] at hv
    | (b, u) :: pending =>
      rw [List.map_cons, walkPending_cons, List.getElem?_cons_succ, ← map_snd_childVisits b,
        ← List.map_append] at hv
      have hleft := ih h.step (by rw [List.length_append]; exact hv)
      rw [List.length_append, List.length_singleton, Nat.add_right_comm, Nat.add_assoc] at hleft
      exact hleft

end WalkState

/-- The walk visits every occurrence at its place, with the link that belongs to its address. -/
theorem exists_link (start : Nat) (parent : Option Nat) {root m : Node} {k : Nat} {a : Address}
    (h : root.occurrences[k]? = some (a, m)) :
    ∃ link, (root.walkUnder start parent)[k]? = some ⟨m, link⟩ ∧
      LinkedAt root start parent k a ⟨m, link⟩ := by
  have hnode : ((root.walkUnder start parent).map Visit.node)[k]? = some m := by
    rw [map_node_walkUnder, preorder, List.getElem?_map, h]
    rfl
  rw [List.getElem?_map, Option.map_eq_some_iff] at hnode
  obtain ⟨⟨m', link⟩, hv, rfl⟩ := hnode
  obtain ⟨b, hb, hlinked⟩ := (WalkState.initial root start parent).run hv
  rw [List.length_nil, Nat.zero_add] at hb hlinked
  cases h.symm.trans hb
  exact ⟨link, hv, hlinked⟩

/-! ## Climbing -/

/-- The visit of the node at an address has this place. -/
def HasPlace (root : Node) (start : Nat) (place : Nat) (b : Address) : Prop :=
  ∃ j p, place = start + j ∧ root.occurrences[j]? = some (b, p)

section Climbing

variable {root : Node} {start : Nat} {parent : Option Nat} {visits : List Visit}
  (hvisits : ∀ k v, (root.walkUnder start parent)[k]? = some v → visits[start + k]? = some v)
include hvisits

/-- The links lead from a node to all nodes above it, one after the other, and then to what was given for
the root. -/
theorem LinkedAt.exists_climbs {k : Nat} {a : Address} {v : Visit}
    (h : LinkedAt root start parent k a v) :
    ∃ places, Climbs visits v.parent places parent ∧
      List.Forall₂ (HasPlace root start) places (Address.above a) := by
  -- By induction on the place: the parent of a visit was visited before it.
  induction k using Nat.strongRecOn generalizing a v with
  | ind k ih =>
    cases h with
    | root => exact ⟨[], .stop parent, .nil⟩
    | @child j i b p m hj hp hm =>
      obtain ⟨link, hv, hlinked⟩ := exists_link start parent hp
      obtain ⟨places, hclimbs, habove⟩ := ih j hj hlinked
      rw [Address.above_concat]
      exact ⟨(start + j) :: places, .up (hvisits j _ hv) hclimbs, .cons ⟨j, p, rfl, hp⟩ habove⟩

/-- At the places of the nodes above an address stand these nodes. -/
theorem map_node_places {places : List Nat} {bs : List Address}
    (h : List.Forall₂ (HasPlace root start) places bs) :
    (places.filterMap (visits[·]?)).map Visit.node = bs.filterMap root.at? := by
  induction h with
  | nil => rfl
  | @cons place b places bs hplace _ ih =>
    obtain ⟨j, p, rfl, hp⟩ := hplace
    obtain ⟨link, hv, -⟩ := exists_link start parent hp
    have hat : root.at? b = some p := mem_occurrences.1 (List.mem_of_getElem? hp)
    rw [List.filterMap_cons_some (hvisits j _ hv), List.filterMap_cons_some hat, List.map_cons, ih]

/-- There is a node at every address above one that leads to a node. -/
theorem LinkedAt.length_nodesAbove {k : Nat} {a : Address} {v : Visit}
    (h : LinkedAt root start parent k a v) : (root.nodesAbove a).length = a.length := by
  obtain ⟨places, -, habove⟩ := h.exists_climbs hvisits
  rw [← Address.length_above a, nodesAbove, List.filterMap_length_eq_length]
  intro b hb
  obtain ⟨place, -, j, p, -, hp⟩ := Attempt.exists_of_mem_forall₂ habove hb
  rw [mem_occurrences.1 (List.mem_of_getElem? hp), Option.isSome_some]

/-- The nearest ancestors of a node are the nearest of the nodes above it, and then those of the root. -/
theorem LinkedAt.ancestorKinds_eq {k : Nat} {a : Address} {v : Visit}
    (h : LinkedAt root start parent k a v) (limit : Nat) :
    ancestorKinds visits.toArray limit v.parent =
      ((root.nodesAbove a).map Node.kind).take limit ++
        ancestorKinds visits.toArray (limit - a.length) parent := by
  obtain ⟨places, hclimbs, habove⟩ := h.exists_climbs hvisits
  have hnodes := map_node_places hvisits habove
  rw [ancestorKinds_of_climbs hclimbs, habove.length_eq, Address.length_above, nodesAbove, ← hnodes,
    List.map_map]
  rfl

end Climbing

end Node

namespace Listing

/-- The line for a node, given the nearest of the nodes above it. -/
def lineBelow (n : Node) (nearest : List Node) : Text :=
  "line=" ++ Text.ofNat n.pos.line ++ " column=" ++ Text.ofNat n.pos.column ++ " kind=" ++
    Text.ofString n.kind.name ++ " label=" ++ n.dumpLabel ++ " parents=" ++
    Text.joinWith " -> " (nearest.map fun p => Text.ofString p.kind.name)

theorem line_eq {visits : Array Visit} {v : Visit} {nearest : List Node}
    (h : ancestorKinds visits ancestorLimit v.parent = nearest.map Node.kind) :
    line visits v = lineBelow v.node nearest := by
  rw [line, h, List.map_map]
  rfl

end Listing

namespace Node

theorem line_of_linkedAt {root : Node} {start : Nat} {visits : List Visit}
    (hvisits : ∀ k v, (root.walkUnder start none)[k]? = some v → visits[start + k]? = some v)
    {k : Nat} {a : Address} {v : Visit} (h : LinkedAt root start none k a v) :
    Listing.line visits.toArray v = Listing.lineBelow v.node ((root.nodesAbove a).take 3) := by
  apply Listing.line_eq
  rw [h.ancestorKinds_eq hvisits, List.map_take, Listing.ancestorLimit]
  cases 3 - a.length <;> simp [ancestorKinds]

/-- The listing of a program, line by line. -/
theorem lines_walk (root : Node) (first last : Json) :
    Listing.lines (root.walk 0) first last =
      (root.occurrences.filterM fun o => Listing.isAskedFor first last o.2.pos.line).map
        (·.map fun o => Listing.lineBelow o.2 ((root.nodesAbove o.1).take 3)) := by
  have hlength : (root.walk 0).length = root.occurrences.length := by
    rw [← List.length_map (f := Visit.node), map_node_walk, preorder, List.length_map]
  have hvisits (k : Nat) (v : Visit) (hv : (root.walkUnder 0 none)[k]? = some v) :
      (root.walk 0)[0 + k]? = some v := by
    rw [Nat.zero_add]
    exact hv
  apply Attempt.map_filterM_congr
  rw [List.forall₂_iff_get]
  refine ⟨hlength, ?_⟩
  intro k hk hk'
  obtain ⟨link, hv, hlinked⟩ := exists_link 0 none (List.getElem?_eq_getElem hk')
  obtain ⟨_, hv⟩ := List.getElem?_eq_some_iff.1 hv
  have hget : (root.walk 0).get ⟨k, hk⟩ = ⟨root.occurrences[k].2, link⟩ := hv
  rw [hget]
  exact ⟨rfl, line_of_linkedAt hvisits hlinked⟩

/-- A walk, as a part of a longer list, visits the nodes of a tree before those below them, every occurrence
once. The root is linked to what was given for it, any other node to the earlier visit of the node in whose
slot it stands. So the links lead from a node to all nodes above it, one after the other, and a listing
shows the nearest three of these. -/
theorem walk_links_to_ancestors (before after : List Visit) (parent : Option Nat) (root : Node) :
    let start := before.length
    let visits := before ++ root.walkUnder start parent ++ after
    (root.walkUnder start parent).map Visit.node = root.preorder ∧
    root.preorder = root :: root.children.flatMap preorder ∧
    (root.occurrences.map Prod.fst).Nodup ∧
    (∀ a m, (a, m) ∈ root.occurrences ↔ root.at? a = some m) ∧
    visits[start]? = some ⟨root, parent⟩ ∧
    (∀ k a m, root.occurrences[k]? = some (a, m) →
      ∃ link places, visits[start + k]? = some ⟨m, link⟩ ∧
        (∀ b i, a = b ++ [i] → ∃ j p, j < k ∧ root.occurrences[j]? = some (b, p) ∧
          p.slot? i = some m ∧ link = some (start + j)) ∧
        Climbs visits link places parent ∧
        List.Forall₂ (HasPlace root start) places (Address.above a) ∧
        (root.nodesAbove a).length = a.length ∧
        (parent = none → Listing.line visits.toArray ⟨m, link⟩ =
          Listing.lineBelow m ((root.nodesAbove a).take 3))) ∧
    ∀ first last, Listing.lines (root.walk 0) first last =
      (root.occurrences.filterM fun o => Listing.isAskedFor first last o.2.pos.line).map
        (·.map fun o => Listing.lineBelow o.2 ((root.nodesAbove o.1).take 3)) := by
  intro start visits
  have hvisits (k : Nat) (v : Visit) (hv : (root.walkUnder start parent)[k]? = some v) :
      visits[start + k]? = some v := by
    obtain ⟨hk, -⟩ := List.getElem?_eq_some_iff.1 hv
    rw [show visits = before ++ (root.walkUnder start parent ++ after) from List.append_assoc _ _ _,
      List.getElem?_append_right (Nat.le_add_right _ _), Nat.add_sub_cancel_left,
      List.getElem?_append_left hk, hv]
  have hnodup := nodup_of_pairwise_lt (pairwise_occurrences root)
  have hroot : (root.walkUnder start parent)[0]? = some ⟨root, parent⟩ := by
    rw [walkUnder, walkPending_cons]
    rfl
  refine ⟨map_node_walkUnder start parent root, preorder_eq root, hnodup, fun _ _ => mem_occurrences,
    hvisits 0 _ hroot, ?_, lines_walk root⟩
  intro k a m h
  obtain ⟨link, hv, hlinked⟩ := exists_link start parent h
  obtain ⟨places, hclimbs, habove⟩ := hlinked.exists_climbs hvisits
  refine ⟨link, places, hvisits k _ hv, ?_, hclimbs, habove, hlinked.length_nodesAbove hvisits, ?_⟩
  · intro b i hab
    exact hlinked.exists_parent hab
  · rintro rfl
    exact line_of_linkedAt hvisits hlinked

/-- The block `{ if (a) ; else (a) }` without the branch and without what is called. -/
def gapsBlock : Node :=
  .block ⟨1, 1⟩ [.ifStmt ⟨1, 3⟩ (some (.identifier ⟨1, 7⟩ "a")) none
    (some (.exprStmt ⟨1, 17⟩ (.call ⟨1, 17⟩ none [.identifier ⟨1, 18⟩ "a"] false)))]

/-- The visits of that block between two other ones. -/
def gapsVisits : List Visit :=
  [⟨.super ⟨1, 1⟩, none⟩] ++ gapsBlock.walkUnder 1 none ++ [⟨.super ⟨2, 1⟩, none⟩]

/-- The last node of the block has four nodes above it, although two slots on the way are not filled. -/
theorem walk_links_to_ancestors_gaps :
    gapsBlock.occurrences[5]? = some ([0, 2, 0, 1], .identifier ⟨1, 18⟩ "a") ∧
    ∃ link places, gapsVisits[1 + 5]? = some ⟨.identifier ⟨1, 18⟩ "a", link⟩ ∧
      (∃ j p, j < 5 ∧ gapsBlock.occurrences[j]? = some ([0, 2, 0], p) ∧
        p.slot? 1 = some (.identifier ⟨1, 18⟩ "a") ∧ link = some (1 + j)) ∧
      Climbs gapsVisits link places none ∧
      List.Forall₂ (HasPlace gapsBlock 1) places [[0, 2, 0], [0, 2], [0], []] ∧
      Listing.line gapsVisits.toArray ⟨.identifier ⟨1, 18⟩ "a", link⟩ =
        "line=1 column=18 kind=Identifier label=a " ++
          "parents=CallExpression -> ExpressionStatement -> IfStatement" := by
  have h : gapsBlock.occurrences[5]? = some ([0, 2, 0, 1], .identifier ⟨1, 18⟩ "a") := by
    simp [gapsBlock, occurrences_eq, occurrencesIn, slots]
  obtain ⟨-, -, -, -, -, hlinks, -⟩ :=
    walk_links_to_ancestors [⟨.super ⟨1, 1⟩, none⟩] [⟨.super ⟨2, 1⟩, none⟩] none gapsBlock
  obtain ⟨link, places, hv, hparent, hclimbs, hplaces, -, hline⟩ := hlinks 5 _ _ h
  refine ⟨h, link, places, hv, hparent [0, 2, 0] 1 rfl, hclimbs, hplaces, (hline rfl).trans ?_⟩
  decide

end Node

end ElementLint
