import Mathlib.Data.List.Nodup
import Mathlib.Order.Basic
import ElementLint.Node.Walk

/-!
# Addresses of nodes

An address leads from a node down to one below it: it lists the places of the slots on the way. `at?`
follows an address, and `occurrences` lists every node of a tree together with its address. Since the
address is listed too, a node that occurs twice in a tree is listed twice.

The main statements are that `occurrences` lists each address once, in ascending order
(`pairwise_occurrences`), that it lists exactly what `at?` reaches (`mem_occurrences`), and that the
walk visits the nodes in this order (`map_node_walk`).
-/

namespace ElementLint

/-- The places of the slots on the way from a node down to one below it. -/
abbrev Address := List Nat

/-- The places in a list ascend. -/
theorem pairwise_lt_zipIdx {α : Type*} (l : List α) : l.zipIdx.Pairwise fun c c' => c.2 < c'.2 := by
  rw [← List.pairwise_map (f := Prod.snd), List.zipIdx_map_snd]
  exact List.pairwise_lt_range'

/-- Ascending addresses are listed once each. -/
theorem nodup_of_pairwise_lt {α : Type*} {os : List (Address × α)}
    (h : os.Pairwise fun o o' => o.1 < o'.1) : (os.map Prod.fst).Nodup := by
  rw [List.Nodup, List.pairwise_map]
  apply h.imp
  intro o o' hlt heq
  rw [heq] at hlt
  exact List.lt_irrefl _ hlt

namespace Node

def slot? (n : Node) (i : Nat) : Option Node := n.slots[i]?.join

/-- The node at an address. -/
def at? : Node → Address → Option Node
  | n, [] => some n
  | n, i :: a => (n.slot? i).bind fun m => at? m a

@[simp] theorem at?_nil (n : Node) : n.at? [] = some n := rfl

theorem at?_cons (n : Node) (i : Nat) (a : Address) :
    n.at? (i :: a) = (n.slot? i).bind fun m => m.at? a := rfl

/-- An address in two parts is followed one part after the other. -/
theorem at?_append (n : Node) (a b : Address) :
    n.at? (a ++ b) = (n.at? a).bind fun m => m.at? b := by
  induction a generalizing n with
  | nil => rfl
  | cons i a ih =>
    rw [List.cons_append, at?_cons, at?_cons]
    cases n.slot? i with
    | none => rfl
    | some m => exact ih m

theorem slot?_eq_some_iff {n m : Node} {i : Nat} : n.slot? i = some m ↔ n.slots[i]? = some (some m) := by
  rw [slot?, Option.join_eq_some_iff]

theorem size_le_sizeList {m : Node} {ns : List Node} (h : m ∈ ns) : m.size ≤ sizeList ns := by
  induction ns with
  | nil => cases h
  | cons n ns ih =>
    rw [sizeList]
    rcases List.mem_cons.1 h with rfl | h
    · omega
    · have := ih h
      omega

/-- What fills a slot of a node is smaller than the node. -/
theorem size_lt_of_mem_slots {n m : Node} (h : some m ∈ n.slots) : m.size < n.size := by
  have hmem : m ∈ n.children := List.mem_filterMap.2 ⟨some m, h, rfl⟩
  have hle := size_le_sizeList hmem
  rw [size_eq n]
  omega

/-- What holds of a node whenever it holds of all that fills its slots holds of every node. -/
theorem inductionOn {P : Node → Prop} (step : ∀ n : Node, (∀ m, some m ∈ n.slots → P m) → P n)
    (n : Node) : P n := by
  induction hk : n.size using Nat.strongRecOn generalizing n with
  | ind k ih =>
    subst hk
    exact step n fun m hm => ih m.size (size_lt_of_mem_slots hm) m rfl

/-- The nodes of a tree with their addresses, each before those below it. -/
def occurrences (n : Node) : List (Address × Node) :=
  ([], n) :: n.slots.zipIdx.attach.flatMap fun s =>
    match _h : s.1.1 with
    | none => []
    | some m => (occurrences m).map fun o => (s.1.2 :: o.1, o.2)
termination_by n.size
decreasing_by
  exact size_lt_of_mem_slots (_h ▸ List.fst_mem_of_mem_zipIdx s.2)

/-- The occurrences in one slot of a node, with addresses from the node on. -/
def occurrencesIn : Option Node × Nat → List (Address × Node)
  | (none, _) => []
  | (some m, i) => m.occurrences.map fun o => (i :: o.1, o.2)

theorem occurrences_eq (n : Node) :
    n.occurrences = ([], n) :: n.slots.zipIdx.flatMap occurrencesIn := by
  have hslot (s : Option Node × Nat) :
      (match _h : s.1 with
        | none => []
        | some m => m.occurrences.map fun o => (s.2 :: o.1, o.2)) = occurrencesIn s := by
    rcases s with ⟨_ | m, i⟩ <;> rfl
  rw [occurrences]
  simp only [hslot]
  rw [List.flatMap_subtype (g := occurrencesIn) (fun _ _ => rfl), List.unattach_attach]

theorem mem_occurrencesIn {s : Option Node × Nat} {a : Address} {m : Node} :
    (a, m) ∈ occurrencesIn s ↔ ∃ c b, s.1 = some c ∧ a = s.2 :: b ∧ (b, m) ∈ c.occurrences := by
  rcases s with ⟨_ | c, i⟩
  · simp [occurrencesIn]
  · simp only [occurrencesIn, List.mem_map, Prod.mk.injEq, Prod.exists, Option.some.injEq]
    constructor
    · rintro ⟨b, k, hb, rfl, rfl⟩
      exact ⟨c, b, rfl, rfl, hb⟩
    · rintro ⟨c', b, rfl, rfl, hb⟩
      exact ⟨b, m, hb, rfl, rfl⟩

/-- What is listed below a node stands in one of its slots. -/
theorem mem_occurrences_iff {n m : Node} {a : Address} :
    (a, m) ∈ n.occurrences ↔
      (a = [] ∧ m = n) ∨ ∃ i c b, n.slot? i = some c ∧ a = i :: b ∧ (b, m) ∈ c.occurrences := by
  rw [occurrences_eq, List.mem_cons, List.mem_flatMap, Prod.mk.injEq]
  apply or_congr Iff.rfl
  constructor
  · rintro ⟨⟨s, i⟩, hs, hm⟩
    obtain ⟨c, b, rfl, rfl, hb⟩ := mem_occurrencesIn.1 hm
    exact ⟨i, c, b, slot?_eq_some_iff.2 (List.mk_mem_zipIdx_iff_getElem?.1 hs), rfl, hb⟩
  · rintro ⟨i, c, b, hs, rfl, hb⟩
    have hmem := List.mk_mem_zipIdx_iff_getElem?.2 (slot?_eq_some_iff.1 hs)
    exact ⟨(some c, i), hmem, mem_occurrencesIn.2 ⟨c, b, rfl, rfl, hb⟩⟩

/-- The occurrences are what the addresses reach. -/
theorem mem_occurrences {n m : Node} {a : Address} : (a, m) ∈ n.occurrences ↔ n.at? a = some m := by
  induction a generalizing n with
  | nil =>
    rw [mem_occurrences_iff, at?_nil, Option.some.injEq]
    simp [eq_comm]
  | cons i a ih =>
    rw [mem_occurrences_iff, at?_cons, Option.bind_eq_some_iff]
    simp [ih]

/-- The addresses are listed in ascending order, so that each is listed once. -/
theorem pairwise_occurrences (n : Node) :
    n.occurrences.Pairwise fun o o' => o.1 < o'.1 := by
  induction n using inductionOn with
  | step n ih =>
    rw [occurrences_eq, List.pairwise_cons]
    constructor
    · rintro ⟨a, m⟩ hm
      obtain ⟨s, -, hs⟩ := List.mem_flatMap.1 hm
      obtain ⟨c, b, -, rfl, -⟩ := mem_occurrencesIn.1 hs
      exact List.nil_lt_cons _ _
    · rw [List.pairwise_flatMap]
      constructor
      · rintro ⟨_ | c, i⟩ hs
        · exact List.Pairwise.nil
        · rw [occurrencesIn, List.pairwise_map]
          apply (ih c (List.fst_mem_of_mem_zipIdx hs)).imp
          intro o o' h
          exact List.cons_lt_cons_iff.2 (.inr ⟨rfl, h⟩)
      · apply (pairwise_lt_zipIdx n.slots).imp
        rintro s s' h ⟨a, m⟩ hm ⟨a', m'⟩ hm'
        obtain ⟨c, b, -, rfl, -⟩ := mem_occurrencesIn.1 hm
        obtain ⟨c', b', -, rfl, -⟩ := mem_occurrencesIn.1 hm'
        exact List.cons_lt_cons_iff.2 (.inl h)

/-- The nodes of a tree, each before those below it. -/
def preorder (n : Node) : List Node := n.occurrences.map Prod.snd

theorem map_snd_occurrencesIn (s : Option Node × Nat) :
    (occurrencesIn s).map Prod.snd = s.1.toList.flatMap preorder := by
  rcases s with ⟨_ | m, i⟩
  · rfl
  · simp [occurrencesIn, preorder, Function.comp_def]

/-- To go through the slots, whatever their places, is to go through the children. -/
theorem flatMap_zipIdx_slots {β : Type*} (f : Node → List β) (slots : List (Option Node)) (start : Nat) :
    (slots.zipIdx start).flatMap (fun s => s.1.toList.flatMap f) = (slots.filterMap id).flatMap f := by
  induction slots generalizing start with
  | nil => rfl
  | cons s slots ih =>
    rw [List.zipIdx_cons, List.flatMap_cons, ih]
    cases s with
    | none => rfl
    | some m => simp

/-- A node comes before the nodes below its children, and these come in the order of the children. -/
theorem preorder_eq (n : Node) : n.preorder = n :: n.children.flatMap preorder := by
  rw [preorder, occurrences_eq, List.map_cons, List.map_flatMap]
  simp only [map_snd_occurrencesIn]
  rw [flatMap_zipIdx_slots, children]

/-- The walk of some pending trees goes through each of them before the next one. -/
theorem map_node_walkPending (next : Nat) (pending : List Visit) :
    (walkPending next pending).map Visit.node = (pending.map Visit.node).flatMap preorder := by
  fun_induction walkPending next pending with
  | case1 => rfl
  | case2 next v rest ih =>
    have hchildren : (v.node.children.map (Visit.mk · (some next))).map Visit.node =
        v.node.children := by
      simp [Function.comp_def]
    rw [List.map_cons, ih, List.map_append, hchildren, List.flatMap_append, List.map_cons,
      List.flatMap_cons, preorder_eq v.node, List.cons_append]

/-- The walk visits every occurrence once, in the order of the addresses. -/
theorem map_node_walkUnder (start : Nat) (parent : Option Nat) (root : Node) :
    (root.walkUnder start parent).map Visit.node = root.preorder := by
  rw [walkUnder, map_node_walkPending]
  simp

theorem map_node_walk (start : Nat) (root : Node) :
    (root.walk start).map Visit.node = root.preorder :=
  map_node_walkUnder start none root

end Node

end ElementLint
