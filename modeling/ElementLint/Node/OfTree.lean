import ElementLint.Literal.Escape
import ElementLint.Node.Basic

/-!
# From concrete trees to nodes

`Node.ofTree limit` turns a concrete tree into nodes, going at most `limit` levels down. One level is
`ofTreeWith self`, which turns the root and hands the trees below it to `self`: a parenthesised
expression is the expression inside it, comments are left out, and a construct with no kind of its own
becomes an `other` node.

A chain of binary operators that nests to the left is one level: it is turned from the inside
outwards.
-/

namespace ElementLint

inductive ConvertError where
  | tooDeep
  | missingOperator
  /-- An escape sequence denotes nothing. -/
  | escape (e : EscapeError)
  | numeral (e : NumeralError)
deriving DecidableEq

/-- How nodes are read off a concrete tree. -/
inductive Form where
  | program
  | block
  | expressionStatement
  | parenthesized
  | ifStatement
  | call
  | member
  | subscript
  | super
  | string
  | number
  | bool (value : Bool)
  | null
  | binary
  | unary
  | method
  | identifier
  | other
deriving DecidableEq

namespace Form

def ofType : String → Form
  | "program" => .program
  | "statement_block" => .block
  | "expression_statement" => .expressionStatement
  | "parenthesized_expression" => .parenthesized
  | "if_statement" => .ifStatement
  | "call_expression" => .call
  | "member_expression" => .member
  | "subscript_expression" => .subscript
  | "super" => .super
  | "string" => .string
  | "number" => .number
  | "true" => .bool true
  | "false" => .bool false
  | "null" => .null
  | "binary_expression" => .binary
  | "unary_expression" => .unary
  | "method_definition" => .method
  | "identifier" | "property_identifier" | "private_property_identifier"
  | "shorthand_property_identifier" | "undefined" => .identifier
  | _ => .other

end Form

namespace Tree

def form (t : Tree) : Form := Form.ofType t.type

/-- The binary expressions that nest to the left inside a binary expression, from the outermost to the
innermost, and the operand at the left end. -/
def leftChain : Tree → List Tree × Option Tree
  | .node _ children => below children
where
  /-- The chain that goes on in the first left operand among the children. -/
  below : List Tree → List Tree × Option Tree
    | [] => ([], none)
    | t :: rest =>
      if t.inField "left" then
        if t.form = .binary then
          let (inner, leftmost) := leftChain t
          (t :: inner, leftmost)
        else ([], some t)
      else below rest

end Tree

namespace Node

/-- What a source text tells about a node of a tree: where it starts, and its text. -/
structure View where
  locate : Label → Position
  excerpt : Label → Text

def View.ofSource (s : Source) : View := ⟨s.locate, s.excerpt⟩

abbrev Converted (α : Type) := Except ConvertError α

def optional (self : Tree → Converted Node) : Option Tree → Converted (Option Node)
  | none => .ok none
  | some t => (self t).map some

def ofField (self : Tree → Converted Node) (t : Tree) (name : String) : Converted (Option Node) :=
  optional self (t.child? name)

/-- What one piece of a string literal denotes: an escape sequence is decoded, other text stands for
itself. -/
def stringPiece (v : View) (t : Tree) : Converted Text :=
  if t.type = "escape_sequence" then (Escape.decode (v.excerpt t.label)).mapError .escape
  else .ok (v.excerpt t.label)

/-- What a string literal denotes: its pieces one after the other. -/
def stringValue (v : View) (t : Tree) : Converted Text :=
  (t.namedChildren.mapM (stringPiece v)).map List.flatten

def operatorOf (t : Tree) : Converted String :=
  match t.child? "operator" with
  | some op => .ok op.type
  | none => .error .missingOperator

/-- A logical or another binary expression, according to its operator. -/
def binaryNode (pos : Position) (operator : String) (left right : Option Node) : Node :=
  match LogicalOperator.ofSymbol? operator with
  | some op => .logical pos op left right
  | none => .binary pos operator left right

/-- Turn a binary expression whose left operand has been turned. -/
def extendChain (v : View) (self : Tree → Converted Node) (left : Option Node) (t : Tree) :
    Converted Node := do
  let operator ← operatorOf t
  let right ← ofField self t "right"
  return binaryNode (v.locate t.label) operator left right

/-- Turn a binary expression: the chain inside it from the innermost outwards, then the expression
itself. -/
def ofChain (v : View) (self : Tree → Converted Node) (t : Tree) : Converted Node := do
  let (inner, leftmost) := t.leftChain
  let innermost ← optional self leftmost
  let left ← inner.reverse.foldlM (fun left t => (extendChain v self left t).map some) innermost
  extendChain v self left t

/-- The alternative of a conditional: the first part of its else clause. -/
def alternateOf (self : Tree → Converted Node) (t : Tree) : Converted (Option Node) :=
  match t.child? "alternative" with
  | none => .ok none
  | some clause => optional self clause.parts.head?

def methodName (v : View) (t : Tree) : Converted (Option Text) :=
  match t.child? "name" with
  | none => .ok none
  | some name =>
    match name.form with
    | .identifier => .ok (some (v.excerpt name.label))
    | .string => (stringValue v name).map some
    | _ => .ok none

def block? : Option Node → Option Node
  | some (.block pos body) => some (.block pos body)
  | _ => none

/-- Turn the root of a tree, and hand the trees below it to `self`. -/
def ofTreeWith (v : View) (self : Tree → Converted Node) (t : Tree) : Converted Node := do
  let pos := v.locate t.label
  match t.form with
  | .program => return .program pos (← t.parts.mapM self)
  | .block => return .block pos (← t.parts.mapM self)
  | .expressionStatement =>
    match t.parts with
    | [] => return .other pos "empty_statement" []
    | expr :: _ => return .exprStmt pos (← self expr)
  | .parenthesized =>
    match t.parts with
    | [expr] => self expr
    | parts => return .other pos t.type (← parts.mapM self)
  | .ifStatement =>
    let alternate ← alternateOf self t
    let test ← ofField self t "condition"
    let consequent ← ofField self t "consequence"
    return .ifStmt pos test consequent alternate
  | .call =>
    let callee ← ofField self t "function"
    match t.child? "arguments" with
    | none => return .call pos callee [] t.hasOptionalMark
    | some arguments =>
      if arguments.type = "arguments" then
        return .call pos callee (← arguments.parts.mapM self) t.hasOptionalMark
      else return .taggedTemplate pos callee (← self arguments)
  | .member =>
    let object ← ofField self t "object"
    let property ← ofField self t "property"
    return .member pos object property false t.hasOptionalMark
  | .subscript =>
    let object ← ofField self t "object"
    let property ← ofField self t "index"
    return .member pos object property true t.hasOptionalMark
  | .super => return .super pos
  | .string => return .literal pos (.text (← stringValue v t)) (v.excerpt t.label)
  | .number =>
    let raw := v.excerpt t.label
    let value ← (LiteralValue.ofNumber raw).mapError .numeral
    return .literal pos value raw
  | .bool true => return .literal pos (.bool true) "true"
  | .bool false => return .literal pos (.bool false) "false"
  | .null => return .literal pos .null "null"
  | .binary => ofChain v self t
  | .unary =>
    let operator ← operatorOf t
    return .unary pos operator (← ofField self t "argument")
  | .method =>
    let name ← methodName v t
    let body ← ofField self t "body"
    let params ← ofField self t "parameters"
    return .method pos name params (block? body)
  | .identifier => return .identifier pos (v.excerpt t.label)
  | .other => return .other pos t.type (← t.parts.mapM self)

/-- Turn a tree, going at most `limit` levels down. -/
def ofTree (v : View) : (limit : Nat) → Tree → Converted Node
  | 0, _ => .error .tooDeep
  | limit + 1, t => ofTreeWith v (ofTree v limit) t

/-- How many levels down a source text may nest. -/
def maxDepth : Nat := 500

end Node

end ElementLint
