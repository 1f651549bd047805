import ElementLint.Grammar.Function

/-!
# Expressions

Expressions from the tightest parts to the loosest: operands, which arrow functions are among, accesses and
calls, operators before and after an operand, binary operators by level, the conditional, assignments,
and commas.
-/

namespace ElementLint

namespace Grammar

open ElementLint.Grammar.Parser

/-! ## Operands -/

def operandWords : List String := ["this", "super", "true", "false", "null", "undefined"]

def reservedWords : List String :=
  ["break", "case", "catch", "class", "const", "continue", "debugger", "default", "delete", "do",
    "else", "enum", "export", "extends", "finally", "for", "function", "if", "import", "in",
    "instanceof", "new", "return", "switch", "throw", "try", "typeof", "var", "void", "while", "with"]

def spreadOr (self : Self) : Parser Tree := do
  if ← at? "..." then
    let dots ← next
    let expr ← self (.assignment false)
    nodeAt dots "spread_element" [expr]
  else self (.assignment false)

/-- An item of an array; nothing for a hole. -/
def arrayItem (self : Self) : Parser (List Tree) := do
  if ← at? "," then return [] else return [← spreadOr self]

def array (self : Self) : Parser Tree := do
  let t ← punctuator "["
  let items ← listUpTo "]" (arrayItem self)
  nodeAt t "array" items

def objectItem (self : Self) : Parser (List Tree) := do
  let first ← peek
  if first.isPunctuator "..." then return [← spreadOr self]
  else
    let marked ← methodMarks false
    let second ← peekSecond
    if !marked && first.kind = .word && (second.isPunctuator "," || second.isPunctuator "\x7d") then
      let t ← next
      return [t.leaf "shorthand_property_identifier"]
    else
      let name ← self .propertyName
      if marked || (← at? "(") then return [← methodFrom self first name]
      else
        let _ ← punctuator ":"
        let value ← self (.assignment false)
        return [← nodeAt first "pair" [name.withField "key", value.withField "value"]]

def object (self : Self) : Parser Tree := do
  let t ← punctuator "\x7b"
  let items ← listUpTo "\x7d" (objectItem self)
  nodeAt t "object" items

/-- A piece of a template; nothing at its end. -/
def templatePiece (self : Self) : Parser (Option (List Tree)) := do
  let t ← next
  match t.kind with
  | .templateQuote => return none
  | .templateText => return some [t.leaf "string_fragment"]
  | .templateEscape => return some [t.leaf "escape_sequence"]
  | _ =>
    if t.isPunctuator "$\x7b" then
      let expr ← self (.expression false)
      let _ ← punctuator "\x7d"
      return some [← nodeAt t "template_substitution" [expr]]
    else mismatch

def template (self : Self) : Parser Tree := do
  let t ← next
  let pieces ← many (templatePiece self)
  nodeAt t "template_string" pieces

def arguments (self : Self) : Parser Tree := do
  let t ← punctuator "("
  let items ← listUpTo ")" (do return [← spreadOr self])
  nodeAt t "arguments" items

def parenthesized (self : Self) : Parser Tree := do
  let t ← punctuator "("
  let expr ← self (.expression false)
  let _ ← punctuator ")"
  nodeAt t "parenthesized_expression" [expr]

def arrowBody (self : Self) : Parser Tree := do
  let _ ← punctuator "=>"
  if ← at? "\x7b" then self .block else self (.assignment false)

/-- An arrow function, from its parameters on; `first` is its first token. -/
def arrowFrom (self : Self) (first : Token) : Parser Tree := do
  let params ←
    if ← at? "(" then (do return (← parameters self).withField "parameters")
    else (do return (← identifier).withField "parameter")
  let body ← arrowBody self
  nodeAt first "arrow_function" [params, body.withField "body"]

/-- Whether the tokens from the next one on are the parameters of an arrow function. -/
def isArrow (t second : Token) : Bool :=
  (t.isPunctuator "(" && t.follower == "=>") || (t.kind == .word && second.isPunctuator "=>")

/-- Whether the word `async` stands before the parameters of an arrow function. -/
def isAsyncArrow (t second third : Token) : Bool :=
  t.isWord "async" && !second.endsExpression && isArrow second third

/-- An object made by `new`, or `new.target`. -/
def newExpression (self : Self) : Parser Tree := do
  let t ← word "new"
  if ← skip "." then
    let _ ← word "target"
    nodeAt t "meta_property" []
  else
    let callee ← self .constructor
    let args ← if ← at? "(" then (do return [(← arguments self).withField "arguments"]) else pure []
    nodeAt t "new_expression" (callee.withField "constructor" :: args)

/-- The function `import`, or `import.meta`. -/
def importExpression : Parser Tree := do
  let t ← word "import"
  if ← skip "." then
    let _ ← word "meta"
    nodeAt t "meta_property" []
  else return t.leaf "import"

def wordOperand (self : Self) : Parser Tree := do
  let t ← peek
  if operandWords.contains t.text then return (← next).leaf t.text
  else if t.text = "function" || (← isAsyncFunction) then
    functionOf self FunctionTypes.inExpression
  else if t.text = "class" then self (.classOf "class")
  else if t.text = "new" then newExpression self
  else if t.text = "import" then importExpression
  else if reservedWords.contains t.text then mismatch
  else identifier

def operand (self : Self) : Parser Tree := do
  let t ← peek
  let second ← peekSecond
  let third := (← get).rest.tail.tail.headD default
  if isAsyncArrow t second third then
    let _ ← next
    arrowFrom self t
  else if isArrow t second then arrowFrom self t
  else match t.kind with
  | .word => wordOperand self
  | .privateName => return (← next).leaf "private_property_identifier"
  | .number => return (← next).leaf "number"
  | .string => return (← next).leaf "string"
  | .templateQuote => template self
  | .punctuator =>
    if t.text = "(" then parenthesized self
    else if t.text = "[" then array self
    else if t.text = "\x7b" then object self
    else mismatch
  | _ => mismatch

/-! ## Accesses and calls -/

def memberName : Parser Tree := do
  let t ← next
  match t.kind with
  | .word => return t.leaf "property_identifier"
  | .privateName => return t.leaf "private_property_identifier"
  | _ => mismatch

/-- An access by name; `marks` holds the mark of an optional access. -/
def memberOf (target : Tree) (marks : List Tree) : Parser Tree := do
  let name ← memberName
  nodeFrom target "member_expression"
    (target.withField "object" :: marks ++ [name.withField "property"])

def subscriptOf (self : Self) (target : Tree) (marks : List Tree) : Parser Tree := do
  let _ ← punctuator "["
  let index ← self (.expression false)
  let _ ← punctuator "]"
  nodeFrom target "subscript_expression"
    (target.withField "object" :: marks ++ [index.withField "index"])

def callOf (self : Self) (target : Tree) (marks : List Tree) : Parser Tree := do
  let args ← arguments self
  nodeFrom target "call_expression"
    (target.withField "function" :: marks ++ [args.withField "arguments"])

def optionalAccess (self : Self) (target : Tree) : Parser Tree := do
  let mark := (← next).leaf "optional_chain"
  if ← at? "(" then callOf self target [mark]
  else if ← at? "[" then subscriptOf self target [mark]
  else memberOf target [mark]

/-- A template behind the function that it is handed to. -/
def templateCall (self : Self) (target : Tree) : Parser Tree := do
  let quoted ← template self
  nodeFrom target "call_expression" [target.withField "function", quoted.withField "arguments"]

/-- An access that `new` reaches over, if one follows. -/
def plainAccess (self : Self) (target : Tree) : Parser (Option Tree) := do
  if ← skip "." then return some (← memberOf target [])
  else if ← at? "[" then return some (← subscriptOf self target [])
  else if (← peek).kind = .templateQuote then return some (← templateCall self target)
  else return none

def nextAccess (self : Self) (target : Tree) : Parser (Option Tree) := do
  match ← plainAccess self target with
  | some t => return some t
  | none =>
    let t ← peek
    if t.isPunctuator "?." then return some (← optionalAccess self target)
    else if t.isPunctuator "(" then return some (← callOf self target [])
    else return none

def access (self : Self) : Parser Tree := do
  chain (nextAccess self) (← operand self)

/-- What `new` is put before. -/
def constructor (self : Self) : Parser Tree := do
  chain (plainAccess self) (← operand self)

/-! ## Operators -/

def unaryOperators : List String := ["!", "~", "-", "+", "typeof", "void", "delete"]

def isUpdate (t : Token) : Bool := t.isPunctuator "++" || t.isPunctuator "--"

def isUnary (t : Token) : Bool :=
  (t.kind == .punctuator || t.kind == .word) && unaryOperators.contains t.text

/-- A value handed out by a generator. It may be left out, at the end of a line or where no expression
starts. -/
def yieldExpression (self : Self) : Parser Tree := do
  let t ← word "yield"
  let after ← peek
  if after.isPunctuator "*" then
    let _ ← next
    let value ← self (.assignment false)
    nodeAt t "yield_expression" [value]
  else if startsExpression after && !after.endsExpression then
    let value ← self (.assignment false)
    nodeAt t "yield_expression" [value]
  else nodeAt t "yield_expression" []

def unary (self : Self) : Parser Tree := do
  let t ← peek
  if isUnary t then
    let t ← next
    let argument ← self .unary
    nodeAt t "unary_expression" [t.mark.withField "operator", argument.withField "argument"]
  else if isUpdate t then
    let t ← next
    let argument ← self .unary
    nodeAt t "update_expression" [t.mark.withField "operator", argument.withField "argument"]
  else if t.isWord "await" then
    let t ← next
    let argument ← self .unary
    nodeAt t "await_expression" [argument]
  else if t.isWord "yield" then yieldExpression self
  else
    let argument ← access self
    let after ← peek
    if isUpdate after && !after.endsExpression then
      let after ← next
      nodeFrom argument "update_expression"
        [argument.withField "argument", after.mark.withField "operator"]
    else return argument

/-- The level of a binary operator; a higher one binds more tightly. -/
def level? (noIn : Bool) (t : Token) : Option Nat :=
  match t.kind with
  | .punctuator =>
    match t.text with
    | "??" => some 1
    | "||" => some 2
    | "&&" => some 3
    | "|" => some 4
    | "^" => some 5
    | "&" => some 6
    | "==" | "!=" | "===" | "!==" => some 7
    | "<" | ">" | "<=" | ">=" => some 8
    | "<<" | ">>" | ">>>" => some 9
    | "+" | "-" => some 10
    | "*" | "/" | "%" => some 11
    | "**" => some 12
    | _ => none
  | .word =>
    match t.text with
    | "instanceof" => some 8
    | "in" => if noIn then none else some 8
    | _ => none
  | _ => none

/-- The level of the operator that groups to the right. -/
def powerLevel : Nat := 12

/-- A binary operator of a level or above and its right operand, if one follows. -/
def nextOperation (self : Self) (level : Nat) (noIn : Bool) (left : Tree) : Parser (Option Tree) := do
  let t ← peek
  match level? noIn t with
  | none => return none
  | some own =>
    if own < level then return none
    else
      let t ← next
      let right ← self (.operation (if own = powerLevel then own else own + 1) noIn)
      return some (← nodeFrom left "binary_expression"
        [left.withField "left", t.mark.withField "operator", right.withField "right"])

def operation (self : Self) (level : Nat) (noIn : Bool) : Parser Tree := do
  chain (nextOperation self level noIn) (← unary self)

def conditional (self : Self) (noIn : Bool) : Parser Tree := do
  let test ← operation self 0 noIn
  if ← skip "?" then
    let consequence ← self (.assignment false)
    let _ ← punctuator ":"
    let alternative ← self (.assignment noIn)
    nodeFrom test "ternary_expression" [test.withField "condition",
      consequence.withField "consequence", alternative.withField "alternative"]
  else return test

/-! ## Assignments -/

def augmentedOperators : List String :=
  ["+=", "-=", "*=", "/=", "%=", "**=", "<<=", ">>=", ">>>=", "&=", "|=", "^=", "&&=", "||=", "??="]

def assignTo (self : Self) (noIn : Bool) (target : Tree) : Parser Tree := do
  let t ← peek
  if t.isPunctuator "=" then
    let _ ← next
    let value ← self (.assignment noIn)
    nodeFrom target "assignment_expression" [target.withField "left", value.withField "right"]
  else if t.kind = .punctuator && augmentedOperators.contains t.text then
    let t ← next
    let value ← self (.assignment noIn)
    nodeFrom target "augmented_assignment_expression"
      [target.withField "left", t.mark.withField "operator", value.withField "right"]
  else return target

def opensPattern (t : Token) : Bool :=
  opensList t && t.follower == "="

def assignment (self : Self) (noIn : Bool) : Parser Tree := do
  if opensPattern (← peek) then assignTo self noIn (← self .pattern)
  else assignTo self noIn (← conditional self noIn)

def expression (self : Self) (noIn : Bool) : Parser Tree := do
  let first ← self (.assignment noIn)
  if ← at? "," then
    let more ← many do
      if ← skip "," then return some [← self (.assignment noIn)] else return none
    nodeFrom first "sequence_expression" (first :: more)
  else return first

end Grammar

end ElementLint
