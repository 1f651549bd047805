import ElementLint.Grammar.Token

/-!
# Reading tokens

A production reads tokens from a cursor and gives the tree of a construct. Constructs that hold one
another are goals: a production hands the goals inside it to a function that reads them, and the
grammar ties the knot with a bound on how deep goals nest.

Repetitions are loops of their own, bounded by the number of tokens, so that a long list or a long chain of
operators is no deep nesting.
-/

namespace ElementLint

namespace Grammar

inductive ParseFailure where
  | tooDeep
  /-- A token stands where the grammar has no place for it. -/
  | mismatch
deriving DecidableEq

structure Cursor where
  rest : List Token
  /-- The byte after the token that was read last. -/
  stop : Nat := 0
  /-- The number of tokens of the whole text. -/
  bound : Nat

abbrev Parser := StateT Cursor (Except ParseFailure)

/-- The constructs that other constructs hold. -/
inductive Goal where
  | statement
  | block
  /-- Expressions with commas between them; `noIn` keeps the operator `in` out, as the head of a loop
  needs. -/
  | expression (noIn : Bool)
  | assignment (noIn : Bool)
  /-- Operands with operators of a level or above between them. -/
  | operation (level : Nat) (noIn : Bool)
  /-- An operand with the operators before and after it. -/
  | unary
  /-- An operand with the accesses and calls after it. -/
  | access
  /-- What `new` is put before: an operand with the accesses after it. -/
  | constructor
  | pattern
  | propertyName
  | classOf (type : String)
deriving DecidableEq

abbrev Self := Goal → Parser Tree

namespace Parser

def mismatch {α : Type} : Parser α := throw .mismatch

def peek : Parser Token := do
  return (← get).rest.headD default

def peekSecond : Parser Token := do
  return (← get).rest.tail.headD default

/-- Read a token; the end of the text is never passed. -/
def next : Parser Token := do
  match (← get).rest with
  | t :: rest =>
    if t.kind = .endOfText then mismatch
    else
      modify fun c => { c with rest, stop := t.stop }
      return t
  | [] => mismatch

def at? (text : String) : Parser Bool := do
  return (← peek).isPunctuator text

def atWord? (text : String) : Parser Bool := do
  return (← peek).isWord text

def punctuator (text : String) : Parser Token := do
  if ← at? text then next else mismatch

def word (text : String) : Parser Token := do
  if ← atWord? text then next else mismatch

/-- Read a punctuator if it comes next, and tell whether it did. -/
def skip (text : String) : Parser Bool := do
  if ← at? text then
    let _ ← next
    return true
  else return false

def skipWord (text : String) : Parser Bool := do
  if ← atWord? text then
    let _ ← next
    return true
  else return false

/-- A node from the start of a label to the token that was read last. -/
def node (origin : Label) (type : String) (children : List Tree) : Parser Tree := do
  let label := { origin with type, stop := (← get).stop, named := true, field := none }
  return .node label children

def nodeAt (t : Token) (type : String) (children : List Tree) : Parser Tree :=
  node (t.label type) type children

def nodeFrom (t : Tree) (type : String) (children : List Tree) : Parser Tree :=
  node t.label type children

/-- Repeat a step until it gives nothing, at most `fuel` times, and gather what it gives. -/
def gather (step : Parser (Option (List Tree))) : (fuel : Nat) → List Tree → Parser (List Tree)
  | 0, _ => mismatch
  | fuel + 1, found => do
    match ← step with
    | none => return found.reverse
    | some trees => gather step fuel (trees.reverse ++ found)

/-- Repeat a step until it gives nothing, and gather what it gives. -/
def many (step : Parser (Option (List Tree))) : Parser (List Tree) := do
  gather step ((← get).bound + 1) []

/-- Repeat a step on what it gave before until it gives nothing, at most `fuel` times. -/
def extend (step : Tree → Parser (Option Tree)) : (fuel : Nat) → Tree → Parser Tree
  | 0, _ => mismatch
  | fuel + 1, t => do
    match ← step t with
    | none => return t
    | some t => extend step fuel t

/-- Repeat a step on what it gave before until it gives nothing. -/
def chain (step : Tree → Parser (Option Tree)) (t : Tree) : Parser Tree := do
  extend step ((← get).bound + 1) t

/-- Items with commas between them up to a closing punctuator, which is read. An item may give several
trees or none, and a comma may stand before the closing punctuator. -/
def listUpTo (close : String) (item : Parser (List Tree)) : Parser (List Tree) :=
  many do
    if ← skip close then return none
    else
      let trees ← item
      if ← at? close then return some trees
      else
        let _ ← punctuator ","
        return some trees

/-- A word that is no keyword, as an identifier; `undefined` has a construct of its own. -/
def identifier : Parser Tree := do
  let t ← next
  if t.kind = .word then return t.leaf (if t.text = "undefined" then "undefined" else "identifier")
  else mismatch

/-- The end of a statement: a semicolon, or a place where one may be left out. -/
def semicolon : Parser Unit := do
  if ← skip ";" then return ()
  else
    let t ← peek
    if t.endsWord || t.spaces.elem 0x0A || t.isPunctuator "\x7d" || t.kind = .endOfText then
      return ()
    else mismatch

def startsExpression (t : Token) : Bool :=
  match t.kind with
  | .word => t.text != "in" && t.text != "instanceof"
  | .privateName | .number | .string | .templateQuote => true
  | .punctuator => ["(", "[", "\x7b", "+", "-", "++", "--", "!", "~"].contains t.text
  | _ => false

end Parser

end Grammar

end ElementLint
