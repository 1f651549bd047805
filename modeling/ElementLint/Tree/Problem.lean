import ElementLint.Tree.Source

/-!
# Problems

The problems of a concrete tree are the nodes at which the grammar failed: a piece of text that fits
nowhere, or a token that had to be put in. Below such a node no further problem is looked for. They are
listed by position; at one position the one in a later child comes first. The search holds the trees that
are still to be looked at in a list of its own, so its depth does not grow with the nesting.
-/

namespace ElementLint

/-- A place at which a source text breaks the grammar. -/
structure Problem where
  position : Position
  message : Text
deriving DecidableEq

namespace Problem

/-- The piece of a text that a message shows: the start of its first line that is not blank. -/
def snippet (t : Text) : Text :=
  (Text.firstLine (Text.strip t)).take 20

def unexpected (s : Source) (l : Label) : Problem :=
  ⟨s.locate l, "Unexpected token '" ++ snippet (s.excerpt l) ++ "'"⟩

def missing (s : Source) (l : Label) : Problem :=
  ⟨s.locate l, "Missing '" ++ Text.ofString l.type ++ "'"⟩

/-- The problem at a node, if the grammar failed there. -/
def at? (s : Source) (l : Label) : Option Problem :=
  if l.type = "ERROR" then some (unexpected s l)
  else if l.missing then some (missing s l)
  else none

/-- The problems in the trees that are still to be looked at, the first of them next. The children of a
node are looked at from the last one on. -/
def inPending (s : Source) (pending : List Tree) : List Problem :=
  match pending with
  | [] => []
  | t :: rest =>
    match at? s t.label with
    | some p => p :: inPending s rest
    | none => inPending s (if t.label.hasError then t.children.reverse ++ rest else rest)
termination_by Tree.sizeList pending
decreasing_by
  · rw [Tree.sizeList, Tree.size_eq]
    omega
  · rw [Tree.sizeList, Tree.size_eq]
    split
    · rw [Tree.sizeList_append, Tree.sizeList_reverse]
      omega
    · omega

def ofTree (s : Source) (root : Tree) : List Problem :=
  if root.label.hasError then (inPending s [root]).mergeSort fun p q => p.position.le q.position else []

end Problem

end ElementLint
