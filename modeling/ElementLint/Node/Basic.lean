import ElementLint.Literal.Value
import ElementLint.Tree.Source

/-!
# The node model

The rules look at a program through a small set of node kinds. Every construct that no rule asks about
is an `other` node, which keeps its construct name and its children, so that code inside it is still
seen. A slot that a construct should fill and does not is `none`.

`Node.children` lists the children that are there, in source order; everything that walks a program
goes through it.
-/

namespace ElementLint

/-- The operators that evaluate their right operand only if the left one does not settle the value. -/
inductive LogicalOperator where
  | and
  | or
  | coalesce
deriving DecidableEq

namespace LogicalOperator

def symbol : LogicalOperator → String
  | .and => "&&"
  | .or => "||"
  | .coalesce => "??"

def ofSymbol? : String → Option LogicalOperator
  | "&&" => some .and
  | "||" => some .or
  | "??" => some .coalesce
  | _ => none

end LogicalOperator

inductive NodeKind where
  | program
  | methodDefinition
  | blockStatement
  | expressionStatement
  | ifStatement
  | callExpression
  | memberExpression
  | identifier
  | super
  | literal
  | logicalExpression
  | binaryExpression
  | unaryExpression
  | other
deriving DecidableEq

namespace NodeKind

def name : NodeKind → String
  | .program => "Program"
  | .methodDefinition => "MethodDefinition"
  | .blockStatement => "BlockStatement"
  | .expressionStatement => "ExpressionStatement"
  | .ifStatement => "IfStatement"
  | .callExpression => "CallExpression"
  | .memberExpression => "MemberExpression"
  | .identifier => "Identifier"
  | .super => "Super"
  | .literal => "Literal"
  | .logicalExpression => "LogicalExpression"
  | .binaryExpression => "BinaryExpression"
  | .unaryExpression => "UnaryExpression"
  | .other => "Other"

def all : List NodeKind :=
  [.program, .methodDefinition, .blockStatement, .expressionStatement, .ifStatement, .callExpression,
    .memberExpression, .identifier, .super, .literal, .logicalExpression, .binaryExpression,
    .unaryExpression, .other]

def ofName? (name : Text) : Option NodeKind :=
  all.find? fun k => Text.ofString k.name == name

end NodeKind

/-- A program, or a part of one, as the rules see it. -/
inductive Node where
  | program (pos : Position) (body : List Node)
  /-- A method of a class or an object; the name is `none` for a computed one. -/
  | method (pos : Position) (name : Option Text) (params body : Option Node)
  | block (pos : Position) (body : List Node)
  | exprStmt (pos : Position) (expr : Node)
  | ifStmt (pos : Position) (test consequent alternate : Option Node)
  | call (pos : Position) (callee : Option Node) (arguments : List Node) (optional : Bool)
  | member (pos : Position) (object property : Option Node) (computed optional : Bool)
  | identifier (pos : Position) (name : Text)
  | super (pos : Position)
  | literal (pos : Position) (value : LiteralValue) (raw : Text)
  | logical (pos : Position) (operator : LogicalOperator) (left right : Option Node)
  | binary (pos : Position) (operator : String) (left right : Option Node)
  | unary (pos : Position) (operator : String) (argument : Option Node)
  /-- A template with a function before it that is called on the template's parts. -/
  | taggedTemplate (pos : Position) (tag : Option Node) (template : Node)
  /-- Any other construct, by its name. -/
  | other (pos : Position) (type : String) (body : List Node)
deriving Inhabited

namespace Node

def pos : Node → Position
  | .program pos _ | .method pos _ _ _ | .block pos _ | .exprStmt pos _ | .ifStmt pos _ _ _
  | .call pos _ _ _ | .member pos _ _ _ _ | .identifier pos _ | .super pos | .literal pos _ _
  | .logical pos _ _ _ | .binary pos _ _ _ | .unary pos _ _ | .taggedTemplate pos _ _
  | .other pos _ _ => pos

def kind : Node → NodeKind
  | .program .. => .program
  | .method .. => .methodDefinition
  | .block .. => .blockStatement
  | .exprStmt .. => .expressionStatement
  | .ifStmt .. => .ifStatement
  | .call .. => .callExpression
  | .member .. => .memberExpression
  | .identifier .. => .identifier
  | .super .. => .super
  | .literal .. => .literal
  | .logical .. => .logicalExpression
  | .binary .. => .binaryExpression
  | .unary .. => .unaryExpression
  | .taggedTemplate .. => .other
  | .other .. => .other

def taggedTemplateType : String := "tagged_template"

/-- The places for children, in source order, whether filled or not. -/
def slots : Node → List (Option Node)
  | .program _ body | .block _ body | .other _ _ body => body.map some
  | .method _ _ params body => [params, body]
  | .exprStmt _ expr => [some expr]
  | .ifStmt _ test consequent alternate => [test, consequent, alternate]
  | .call _ callee arguments _ => callee :: arguments.map some
  | .member _ object property _ _ => [object, property]
  | .identifier .. | .super _ | .literal .. => []
  | .logical _ _ left right | .binary _ _ left right => [left, right]
  | .unary _ _ argument => [argument]
  | .taggedTemplate _ tag template => [tag, some template]

def children (n : Node) : List Node := n.slots.filterMap id

mutual

def size : Node → Nat
  | .program _ body | .block _ body | .other _ _ body => 1 + sizeList body
  | .method _ _ params body => 1 + sizeOption params + sizeOption body
  | .exprStmt _ expr => 1 + size expr
  | .ifStmt _ test consequent alternate =>
    1 + sizeOption test + sizeOption consequent + sizeOption alternate
  | .call _ callee arguments _ => 1 + sizeOption callee + sizeList arguments
  | .member _ object property _ _ => 1 + sizeOption object + sizeOption property
  | .identifier .. | .super _ | .literal .. => 1
  | .logical _ _ left right | .binary _ _ left right => 1 + sizeOption left + sizeOption right
  | .unary _ _ argument => 1 + sizeOption argument
  | .taggedTemplate _ tag template => 1 + sizeOption tag + size template

def sizeOption : Option Node → Nat
  | none => 0
  | some n => size n

def sizeList : List Node → Nat
  | [] => 0
  | n :: rest => size n + sizeList rest

end

theorem sizeList_append (ns ms : List Node) :
    sizeList (ns ++ ms) = sizeList ns + sizeList ms := by
  induction ns with
  | nil => simp [sizeList]
  | cons n rest ih => simp [sizeList, ih, Nat.add_assoc]

theorem filterMap_id_map_some (ns : List Node) : (ns.map some).filterMap id = ns := by
  induction ns with
  | nil => rfl
  | cons n rest ih => simp

/-- A tree of nodes is its root and the trees of its children. -/
theorem size_eq (n : Node) : n.size = 1 + sizeList n.children := by
  cases n with
  | program | block | other => simp [size, children, slots]
  | identifier | super | literal => simp [size, children, slots, sizeList]
  | exprStmt => simp [size, children, slots, sizeList]
  | method _ _ params body =>
    cases params <;> cases body <;> simp [size, children, slots, sizeList, sizeOption]
    omega
  | ifStmt _ test consequent alternate =>
    cases test <;> cases consequent <;> cases alternate <;>
      simp [size, children, slots, sizeList, sizeOption]
    all_goals omega
  | call _ callee arguments _ =>
    cases callee <;> simp [size, children, slots, sizeList, sizeOption]
    omega
  | member _ object property _ _ =>
    cases object <;> cases property <;> simp [size, children, slots, sizeList, sizeOption]
    omega
  | logical _ _ left right =>
    cases left <;> cases right <;> simp [size, children, slots, sizeList, sizeOption]
    omega
  | binary _ _ left right =>
    cases left <;> cases right <;> simp [size, children, slots, sizeList, sizeOption]
    omega
  | unary _ _ argument =>
    cases argument <;> simp [size, children, slots, sizeList, sizeOption]
  | taggedTemplate _ tag template =>
    cases tag <;> simp [size, children, slots, sizeList, sizeOption]
    omega

/-- The constructs whose code belongs to another function or class. -/
def functionTypes : List String :=
  ["function_expression", "function_declaration", "generator_function",
    "generator_function_declaration", "arrow_function", "class", "class_declaration"]

end Node

end ElementLint
