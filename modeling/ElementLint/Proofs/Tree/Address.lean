import ElementLint.Node.OfTree
import ElementLint.Proofs.Node.Address

/-!
# Addresses in concrete trees

An address in a concrete tree lists the places of the children on the way. The trees that conversion
asks for (the children under a field name, the parts, the chain of left operands) are all found below the
root, so they are smaller than the tree, and what is proved of a tree may assume it of them.
-/

namespace ElementLint

namespace Tree

/-- The tree at an address. -/
def at? : Tree → Address → Option Tree
  | t, [] => some t
  | t, i :: a => t.children[i]?.bind fun s => at? s a

@[simp] theorem at?_nil (t : Tree) : t.at? [] = some t := rfl

theorem at?_cons (t : Tree) (i : Nat) (a : Address) :
    t.at? (i :: a) = t.children[i]?.bind fun s => s.at? a := rfl

theorem at?_append (t : Tree) (a b : Address) :
    t.at? (a ++ b) = (t.at? a).bind fun s => s.at? b := by
  induction a generalizing t with
  | nil => rfl
  | cons i a ih =>
    rw [List.cons_append, at?_cons, at?_cons]
    cases t.children[i]? with
    | none => rfl
    | some s => exact ih s

mutual

/-- The nodes of a tree, each as the tree below it. -/
def subtrees : Tree → List Tree
  | .node label children => .node label children :: subtreesOf children

def subtreesOf : List Tree → List Tree
  | [] => []
  | t :: ts => subtrees t ++ subtreesOf ts

end

theorem mem_subtreesOf {s t : Tree} {ts : List Tree} (ht : t ∈ ts) (hs : s ∈ t.subtrees) :
    s ∈ subtreesOf ts := by
  induction ts with
  | nil => cases ht
  | cons u ts ih =>
    rw [subtreesOf]
    rcases List.mem_cons.1 ht with rfl | ht
    · exact List.mem_append_left _ hs
    · exact List.mem_append_right _ (ih ht)

theorem mem_subtrees_of_at? {t s : Tree} {a : Address} (h : t.at? a = some s) : s ∈ t.subtrees := by
  induction a generalizing t with
  | nil =>
    cases h
    cases s
    exact List.mem_cons_self
  | cons i a ih =>
    obtain ⟨c, hc, hs⟩ := Option.bind_eq_some_iff.1 h
    cases t
    exact List.mem_cons_of_mem _ (mem_subtreesOf (List.mem_of_getElem? hc) (ih hs))

theorem size_le_sizeList {s : Tree} {ts : List Tree} (h : s ∈ ts) : s.size ≤ sizeList ts := by
  induction ts with
  | nil => cases h
  | cons t ts ih =>
    rw [sizeList]
    rcases List.mem_cons.1 h with rfl | h
    · omega
    · have := ih h
      omega

theorem size_lt_of_mem_children {s t : Tree} (h : s ∈ t.children) : s.size < t.size := by
  have hle := size_le_sizeList h
  rw [size_eq t]
  omega

theorem mem_children_of_child? {s t : Tree} {name : String} (h : t.child? name = some s) :
    s ∈ t.children :=
  List.mem_of_find?_eq_some h

theorem mem_children_of_mem_parts {s t : Tree} (h : s ∈ t.parts) : s ∈ t.children :=
  List.mem_of_mem_filter (List.mem_of_mem_filter h)

theorem size_lt_of_child? {s t : Tree} {name : String} (h : t.child? name = some s) :
    s.size < t.size :=
  size_lt_of_mem_children (mem_children_of_child? h)

theorem size_lt_of_mem_parts {s t : Tree} (h : s ∈ t.parts) : s.size < t.size :=
  size_lt_of_mem_children (mem_children_of_mem_parts h)

/-- What holds of a tree whenever it holds of all smaller trees holds of every tree. -/
theorem inductionOn {P : Tree → Prop} (step : ∀ t : Tree, (∀ s : Tree, s.size < t.size → P s) → P t)
    (t : Tree) : P t := by
  induction hk : t.size using Nat.strongRecOn generalizing t with
  | ind k ih =>
    subst hk
    exact step t fun s hs => ih s.size hs s rfl

/-- The chain of left operands goes on in the left operand if that is a binary expression. -/
theorem leftChain_eq (t : Tree) :
    t.leftChain =
      match t.child? "left" with
      | none => ([], none)
      | some s => if s.form = .binary then (s :: s.leftChain.1, s.leftChain.2) else ([], some s) := by
  obtain ⟨label, children⟩ := t
  rw [leftChain, child?, children_node]
  induction children with
  | nil => rfl
  | cons s rest ih =>
    rw [leftChain.below]
    cases hs : s.inField "left" with
    | false => rw [if_neg (by simp), List.find?_cons_of_neg (by simp [hs]), ih]
    | true => rw [if_pos rfl, List.find?_cons_of_pos hs]

/-- The trees of a chain of left operands are smaller than the tree. -/
theorem size_lt_of_leftChain (t : Tree) :
    (∀ s ∈ t.leftChain.1, s.size < t.size) ∧ ∀ s, t.leftChain.2 = some s → s.size < t.size := by
  induction t using inductionOn with
  | step t ih =>
    rw [leftChain_eq]
    cases hleft : t.child? "left" with
    | none => simp
    | some s =>
      have hlt := size_lt_of_child? hleft
      obtain ⟨hinner, hleftmost⟩ := ih s hlt
      dsimp only
      split
      · constructor
        · intro u hu
          rcases List.mem_cons.1 hu with rfl | hu
          · exact hlt
          · exact Nat.lt_trans (hinner u hu) hlt
        · intro u hu
          exact Nat.lt_trans (hleftmost u hu) hlt
      · constructor
        · intro u hu
          cases hu
        · intro u hu
          cases hu
          exact hlt

def namedNode (type : String) (start stop : Nat) (field : Option String) (children : List Tree) : Tree :=
  .node { type, start, stop, row := 0, column := start, named := true, field } children

def token (type : String) (start stop : Nat) : Tree :=
  .node { type, start, stop, row := 0, column := start } []

end Tree

end ElementLint
