import ElementLint.Grammar.Pattern

/-!
# Functions and classes

Functions, methods and classes, whether they are declared or stand in an expression. The words before a
function, such as `async` and `static`, give no node, but the construct starts at them.
-/

namespace ElementLint

namespace Grammar

open ElementLint.Grammar.Parser

def parameter (self : Self) : Parser (List Tree) := do
  if ← at? "..." then return [← restPattern self] else return [← patternWithDefault self]

def parameters (self : Self) : Parser Tree := do
  let t ← punctuator "("
  let items ← listUpTo ")" (parameter self)
  nodeAt t "formal_parameters" items

def parametersAndBody (self : Self) : Parser (List Tree) := do
  let params ← parameters self
  let body ← self .block
  return [params.withField "parameters", body.withField "body"]

/-- The constructs that a function can be: without and with the mark of a generator. -/
structure FunctionTypes where
  plain : String
  generator : String

def FunctionTypes.declared : FunctionTypes :=
  ⟨"function_declaration", "generator_function_declaration"⟩

def FunctionTypes.inExpression : FunctionTypes := ⟨"function_expression", "generator_function"⟩

/-- A function, from the word `async` or the word `function` on. The name may be left out in an
expression. -/
def functionOf (self : Self) (types : FunctionTypes) : Parser Tree := do
  let first ← peek
  let _ ← skipWord "async"
  let _ ← word "function"
  let type := if ← skip "*" then types.generator else types.plain
  let name ← if ← at? "(" then pure [] else (do return [(← identifier).withField "name"])
  let rest ← parametersAndBody self
  nodeAt first type (name ++ rest)

/-- Whether the word `async` before the token makes a function. -/
def isAsyncFunction : Parser Bool := do
  let second ← peekSecond
  return (← atWord? "async") && second.isWord "function" && !second.endsExpression

def methodFrom (self : Self) (first : Token) (name : Tree) : Parser Tree := do
  let rest ← parametersAndBody self
  nodeAt first "method_definition" (name.withField "name" :: rest)

def startsPropertyName (t : Token) : Bool :=
  match t.kind with
  | .word | .privateName | .string | .number => true
  | _ => t.isPunctuator "["

def isMark (t second : Token) : Bool :=
  ((t.isWord "get" || t.isWord "set") && startsPropertyName second) ||
    (t.isWord "async" && (startsPropertyName second || second.isPunctuator "*"))

/-- Read the words and marks before the name of a method: `async`, `get`, `set` and the star. A word is
such a mark only if a name follows it; with `fields`, it is a field of its own if it can end there. The
result tells whether there was a mark. -/
def methodMarks (fields : Bool) : Parser Bool := do
  let t ← peek
  let second ← peekSecond
  let marked ←
    if isMark t second && !(fields && second.endsWord) then
      let _ ← next
      pure true
    else pure false
  let starred ← skip "*"
  return marked || starred

def fieldFrom (self : Self) (first : Token) (name : Tree) : Parser Tree := do
  let value ←
    if ← skip "=" then (do return [(← self (.assignment false)).withField "value"]) else pure []
  let field ← nodeAt first "field_definition" (name.withField "property" :: value)
  semicolon
  return field

/-- Whether the word `static` is a mark before a member, and not its name. -/
def isStaticMark : Parser Bool := do
  let second ← peekSecond
  return (← atWord? "static") && (second.isPunctuator "\x7b" ||
    (!second.endsWord && (startsPropertyName second || second.isPunctuator "*")))

/-- Whether the words `static` and `get` come next, only spaces stand between them, and a line ends behind
them. There they are marks. -/
def isStaticGetter : Parser Bool := do
  let second ← peekSecond
  let third := (← get).rest.tail.tail.headD default
  return (← atWord? "static") && second.isWord "get" && !second.commented && third.spaces.elem 0x0A

/-- A member of a class; a semicolon gives none. -/
def classMember (self : Self) : Parser (Option (List Tree)) := do
  if ← skip "\x7d" then return none
  else if ← skip ";" then return some []
  else
    let first ← peek
    let getter ← isStaticGetter
    let static ← isStaticMark
    if getter then
      let _ ← next
      let _ ← next
    else if static then
      let _ ← next
    if static && (← at? "\x7b") then
      let block ← self .block
      return some [← nodeAt first "class_static_block" [block.withField "body"]]
    else
      let marked ← methodMarks true
      let name ← self .propertyName
      if getter || marked || (← at? "(") then return some [← methodFrom self first name]
      else return some [← fieldFrom self first name]

def heritage (self : Self) : Parser (List Tree) := do
  if ← atWord? "extends" then
    let t ← next
    let base ← self .access
    return [← nodeAt t "class_heritage" [base]]
  else return []

def classOf (self : Self) (type : String) : Parser Tree := do
  let first ← word "class"
  let named := !(← atWord? "extends") && (← peek).kind == .word
  let name ← if named then (do return [(← identifier).withField "name"]) else pure []
  let base ← heritage self
  let brace ← punctuator "\x7b"
  let members ← many (classMember self)
  let body ← nodeAt brace "class_body" members
  nodeAt first type (name ++ base ++ [body.withField "body"])

end Grammar

end ElementLint
