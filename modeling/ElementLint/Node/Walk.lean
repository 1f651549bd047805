import ElementLint.Node.Basic

/-!
# Walking a program

`Node.walkUnder` lists all the nodes of a tree, each before its children and these in source order. With
every node it keeps the place in the list of the node whose child it is; the root may be put under a node
that was visited before, and `Node.walk` puts it under none. The walk holds the nodes that are still to be
visited in a list of its own, so its depth does not grow with the nesting of the tree.
-/

namespace ElementLint

/-- A node that was visited, and the place in the list of visits of its parent. -/
structure Visit where
  node : Node
  parent : Option Nat
deriving Inhabited

namespace Node

def pendingSize (pending : List Visit) : Nat :=
  sizeList (pending.map Visit.node)

theorem pendingSize_children (n : Node) (parent : Option Nat) (pending : List Visit) :
    pendingSize (n.children.map (Visit.mk · parent) ++ pending) + 1 =
      n.size + pendingSize pending := by
  have h : (n.children.map (Visit.mk · parent)).map Visit.node = n.children := by
    simp [Function.comp_def]
  rw [pendingSize, List.map_append, sizeList_append, h, size_eq, pendingSize]
  omega

/-- Visit the trees that are still to be visited, the first of them next; `next` is the place that the
next visit takes. -/
def walkPending (next : Nat) (pending : List Visit) : List Visit :=
  match pending with
  | [] => []
  | v :: rest => v :: walkPending (next + 1) (v.node.children.map (Visit.mk · (some next)) ++ rest)
termination_by pendingSize pending
decreasing_by
  have h := pendingSize_children v.node (some next) rest
  simp only [pendingSize, List.map_cons, sizeList] at h ⊢
  omega

/-- Visit all the nodes of a tree. The visits take the places from `start` on in a longer list, and the
root gets the parent that is given. -/
def walkUnder (start : Nat) (parent : Option Nat) (root : Node) : List Visit :=
  walkPending start [⟨root, parent⟩]

/-- Visit all the nodes of a program, whose root gets no parent. -/
def walk (start : Nat) (root : Node) : List Visit :=
  root.walkUnder start none

theorem walkPending_nil (next : Nat) : walkPending next [] = [] := by
  rw [walkPending]

theorem walkPending_cons (next : Nat) (v : Visit) (rest : List Visit) :
    walkPending next (v :: rest) =
      v :: walkPending (next + 1) (v.node.children.map (Visit.mk · (some next)) ++ rest) := by
  rw [walkPending]

end Node

/-- The kinds of the nearest `limit` ancestors of the visit at a place, the nearest first. -/
def ancestorKinds (visits : Array Visit) : (limit : Nat) → (place : Option Nat) → List NodeKind
  | 0, _ => []
  | _, none => []
  | limit + 1, some place =>
    match visits[place]? with
    | none => []
    | some v => v.node.kind :: ancestorKinds visits limit v.parent

end ElementLint
