/-!
# Concrete trees

A concrete tree is what a grammar makes of a source text: every node has a label and children. The
label says what construct the node is, where it stands, and by which field name its parent reaches it.
Nothing ties a tree to a grammar; fields may be missing and positions may lie outside the text.
-/

namespace ElementLint

/-- What a node of a concrete tree says of itself. -/
structure Label where
  /-- The construct; a token stands for itself. -/
  type : String
  /-- The first byte of the node's text. -/
  start : Nat
  /-- The byte after the node's text. -/
  stop : Nat
  /-- The line on which the node starts, from zero. -/
  row : Nat
  /-- The bytes before the node on its line. -/
  column : Nat
  /-- Whether the node is more than a token. -/
  named : Bool := false
  /-- Whether the node was not in the text but put in to complete it. -/
  missing : Bool := false
  /-- Whether the node or one below it is an error. -/
  hasError : Bool := false
  /-- The name by which the parent reaches the node. -/
  field : Option String := none
deriving DecidableEq, Inhabited

inductive Tree where
  | node (label : Label) (children : List Tree)
deriving Inhabited

namespace Tree

def label : Tree → Label
  | .node label _ => label

def children : Tree → List Tree
  | .node _ children => children

def type (t : Tree) : String := t.label.type

@[simp] theorem label_node (l : Label) (ts : List Tree) : (node l ts).label = l := rfl

@[simp] theorem children_node (l : Label) (ts : List Tree) : (node l ts).children = ts := rfl

def inField (name : String) (t : Tree) : Bool := t.label.field == some name

def child? (t : Tree) (name : String) : Option Tree :=
  t.children.find? (inField name)

def isComment (t : Tree) : Bool :=
  t.type == "comment" || t.type == "html_comment"

def namedChildren (t : Tree) : List Tree :=
  t.children.filter (·.label.named)

/-- The children that are more than tokens and no comments. -/
def parts (t : Tree) : List Tree :=
  t.namedChildren.filter (!·.isComment)

/-- Whether one of the children is the mark of an optional access or call. -/
def hasOptionalMark (t : Tree) : Bool :=
  t.children.any (·.type == "optional_chain")

mutual

def size : Tree → Nat
  | .node _ children => 1 + sizeList children

def sizeList : List Tree → Nat
  | [] => 0
  | t :: rest => size t + sizeList rest

end

/-- A tree is its root and the trees of its children. -/
theorem size_eq (t : Tree) : t.size = 1 + sizeList t.children := by
  cases t
  rw [size, children_node]

theorem sizeList_append (ts us : List Tree) :
    sizeList (ts ++ us) = sizeList ts + sizeList us := by
  induction ts with
  | nil => simp [sizeList]
  | cons t ts ih => simp [sizeList, ih, Nat.add_assoc]

theorem sizeList_reverse (ts : List Tree) : sizeList ts.reverse = sizeList ts := by
  induction ts with
  | nil => rfl
  | cons t ts ih => simp [sizeList, sizeList_append, ih, Nat.add_comm]

def withField (name : String) : Tree → Tree
  | .node label children => .node { label with field := some name } children

end Tree

end ElementLint
