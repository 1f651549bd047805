import ElementLint.Grammar.Expression

/-!
# Statements

Statements and declarations, and the parts of a module.
-/

namespace ElementLint

namespace Grammar

open ElementLint.Grammar.Parser

def block (self : Self) : Parser Tree := do
  let t ← punctuator "\x7b"
  let body ← many do
    if ← skip "\x7d" then return none else return some [← self .statement]
  nodeAt t "statement_block" body

def declaratorFrom (self : Self) (noIn : Bool) (name : Tree) : Parser Tree := do
  let value ←
    if ← skip "=" then (do return [(← self (.assignment noIn)).withField "value"]) else pure []
  nodeFrom name "variable_declarator" (name.withField "name" :: value)

def declaratorsFrom (self : Self) (noIn : Bool) (name : Tree) : Parser (List Tree) := do
  let first ← declaratorFrom self noIn name
  let more ← many do
    if ← skip "," then return some [← declaratorFrom self noIn (← binding self)] else return none
  return first :: more

def declarationType (t : Token) : String :=
  if t.text = "var" then "variable_declaration" else "lexical_declaration"

def isDeclaration (t second : Token) : Bool :=
  t.isWord "var" || t.isWord "const" ||
    (t.isWord "let" && !second.endsExpression &&
      (opensList second ||
        (second.kind == .word && !(["in", "instanceof"].contains second.text))))

def declaration (self : Self) : Parser Tree := do
  let t ← next
  let items ← declaratorsFrom self false (← binding self)
  let node ← nodeAt t (declarationType t) items
  semicolon
  return node

def ifStatement (self : Self) : Parser Tree := do
  let t ← next
  let condition ← parenthesized self
  let consequence ← self .statement
  let alternative ←
    if ← atWord? "else" then (do
      let other ← next
      let body ← self .statement
      return [(← nodeAt other "else_clause" [body]).withField "alternative"])
    else pure []
  nodeAt t "if_statement"
    (condition.withField "condition" :: consequence.withField "consequence" :: alternative)

def emptyStatement : Parser Tree := do
  return (← punctuator ";").leaf "empty_statement"

/-- A part of the head of a loop that may be left out, up to its semicolon. -/
def headPart (self : Self) : Parser Tree := do
  if ← at? ";" then emptyStatement
  else
    let expr ← self (.expression false)
    let _ ← punctuator ";"
    return expr

def forRest (self : Self) (t : Token) (initializer : Tree) : Parser Tree := do
  let condition ← headPart self
  let increment ←
    if ← at? ")" then pure []
    else (do return [(← self (.expression false)).withField "increment"])
  let _ ← punctuator ")"
  let body ← self .statement
  nodeAt t "for_statement" (initializer.withField "initializer" ::
    condition.withField "condition" :: increment ++ [body.withField "body"])

/-- Whether a loop goes over the items or the keys of something. -/
def atForIn : Parser Bool := do
  return (← atWord? "of") || (← atWord? "in")

/-- The rest of a loop over items or keys, after the target and the value that it may start with. -/
def forInRest (self : Self) (t : Token) (target : Tree) (value : List Tree) : Parser Tree := do
  let _ ← next
  let items ← self (.expression false)
  let _ ← punctuator ")"
  let body ← self .statement
  nodeAt t "for_in_statement" (target.withField "left" :: value ++
    [items.withField "right", body.withField "body"])

def forDeclaration (self : Self) (t : Token) : Parser Tree := do
  let first ← next
  let name ← binding self
  if ← atForIn then forInRest self t name []
  else
    let items ← declaratorsFrom self true name
    if ← atForIn then forInRest self t name (items.flatMap fun item => item.children.tail)
    else
      let initializer ← nodeAt first (declarationType first) items
      let _ ← punctuator ";"
      forRest self t initializer

/-- A loop whose head starts with an expression or with a target. -/
def forExpression (self : Self) (t : Token) : Parser Tree := do
  let first ← peek
  let isTarget := opensList first && (first.follower == "of" || first.follower == "in")
  let head ← if isTarget then self .pattern else self (.expression true)
  if ← atForIn then forInRest self t head []
  else
    let _ ← punctuator ";"
    forRest self t head

def forStatement (self : Self) : Parser Tree := do
  let t ← next
  let _ ← skipWord "await"
  let _ ← punctuator "("
  if ← at? ";" then forRest self t (← emptyStatement)
  else if isDeclaration (← peek) (← peekSecond) then forDeclaration self t
  else forExpression self t

def whileStatement (self : Self) : Parser Tree := do
  let t ← next
  let condition ← parenthesized self
  let body ← self .statement
  nodeAt t "while_statement" [condition.withField "condition", body.withField "body"]

def doStatement (self : Self) : Parser Tree := do
  let t ← next
  let body ← self .statement
  let _ ← word "while"
  let condition ← parenthesized self
  let node ← nodeAt t "do_statement" [body.withField "body", condition.withField "condition"]
  let _ ← skip ";"
  return node

def caseBody (self : Self) : Parser (List Tree) :=
  many do
    if (← atWord? "case") || (← atWord? "default") || (← at? "\x7d") then return none
    else return some [← self .statement]

def switchCase (self : Self) : Parser (Option (List Tree)) := do
  if ← skip "\x7d" then return none
  else
    let t ← next
    if t.isWord "case" then
      let value ← self (.expression false)
      let _ ← punctuator ":"
      let body ← caseBody self
      return some [← nodeAt t "switch_case" (value.withField "value" :: body)]
    else if t.isWord "default" then
      let _ ← punctuator ":"
      let body ← caseBody self
      return some [← nodeAt t "switch_default" body]
    else mismatch

def switchStatement (self : Self) : Parser Tree := do
  let t ← next
  let value ← parenthesized self
  let brace ← punctuator "\x7b"
  let cases ← many (switchCase self)
  let body ← nodeAt brace "switch_body" cases
  nodeAt t "switch_statement" [value.withField "value", body.withField "body"]

def catchClause (self : Self) : Parser (List Tree) := do
  if ← atWord? "catch" then
    let t ← next
    let target ←
      if ← skip "(" then (do
        let target ← binding self
        let _ ← punctuator ")"
        return [target.withField "parameter"])
      else pure []
    let body ← self .block
    return [← nodeAt t "catch_clause" (target ++ [body.withField "body"])]
  else return []

def finallyClause (self : Self) : Parser (List Tree) := do
  if ← atWord? "finally" then
    let t ← next
    let body ← self .block
    return [← nodeAt t "finally_clause" [body.withField "body"]]
  else return []

def tryStatement (self : Self) : Parser Tree := do
  let t ← next
  let body ← self .block
  let handler ← catchClause self
  let finalizer ← finallyClause self
  nodeAt t "try_statement" (body.withField "body" :: handler ++ finalizer)

def returnStatement (self : Self) : Parser Tree := do
  let t ← next
  let after ← peek
  let value ←
    if startsExpression after && !after.endsWord then (do return [← self (.expression false)])
    else pure []
  let node ← nodeAt t "return_statement" value
  semicolon
  return node

def throwStatement (self : Self) : Parser Tree := do
  let t ← next
  let value ← self (.expression false)
  let node ← nodeAt t "throw_statement" [value]
  semicolon
  return node

/-- The statements `break` and `continue`, with or without a label. -/
def jumpStatement (type : String) : Parser Tree := do
  let t ← next
  let label ← peek
  let target ←
    if label.kind = .word && !label.endsWord then (do return [(← next).leaf "statement_identifier"])
    else pure []
  let node ← nodeAt t type target
  semicolon
  return node

def debuggerStatement : Parser Tree := do
  let t ← next
  semicolon
  return t.leaf "debugger_statement"

def labeledStatement (self : Self) : Parser Tree := do
  let t ← next
  let _ ← punctuator ":"
  let body ← self .statement
  nodeAt t "labeled_statement"
    [(t.leaf "statement_identifier").withField "label", body.withField "body"]

def expressionStatement (self : Self) : Parser Tree := do
  let expr ← self (.expression false)
  let node ← nodeFrom expr "expression_statement" [expr]
  semicolon
  return node

/-! ## Modules -/

/-- A name that a module gives or takes: a word or a string. The word `default` gives no node. -/
def moduleName : Parser (List Tree) := do
  let t ← next
  match t.kind with
  | .word => if t.text = "default" then return [] else return [t.leaf "identifier"]
  | .string => return [t.leaf "string"]
  | _ => mismatch

def specifier (type : String) : Parser (List Tree) := do
  let first ← peek
  let name ← moduleName
  let localName ← if ← skipWord "as" then moduleName else pure []
  return [← nodeAt first type (name ++ localName)]

def specifiers (clause item : String) : Parser Tree := do
  let t ← punctuator "\x7b"
  let items ← listUpTo "\x7d" (specifier item)
  nodeAt t clause items

/-- Everything under one name: the star, the word `as` and the name. -/
def namespaceOf (type : String) : Parser Tree := do
  let t ← punctuator "*"
  let _ ← word "as"
  let name ← moduleName
  nodeAt t type name

def importPart : Parser Tree := do
  if ← at? "*" then namespaceOf "namespace_import"
  else if ← at? "\x7b" then specifiers "named_imports" "import_specifier"
  else identifier

def sourceOf : Parser Tree := do
  let _ ← word "from"
  let t ← next
  if t.kind = .string then return (t.leaf "string").withField "source" else mismatch

def importClause : Parser Tree := do
  let first ← importPart
  let more ← if ← skip "," then (do return [← importPart]) else pure []
  nodeFrom first "import_clause" (first :: more)

def importStatement : Parser Tree := do
  let t ← next
  let first ← peek
  let parts ←
    if first.kind = .string then (do return [((← next).leaf "string").withField "source"])
    else (do
      let clause ← importClause
      return [clause, ← sourceOf])
  let node ← nodeAt t "import_statement" parts
  semicolon
  return node

/-- Whether the tokens after the word `function` start with a name, or with a star and a name. -/
def isNamed (tokens : List Token) : Bool :=
  match tokens with
  | t :: second :: _ => t.kind == .word || (t.isPunctuator "*" && second.kind == .word)
  | _ => false

/-- What a module gives by default: a function or a class that is declared, if it has a name, and
otherwise the value of an expression. -/
def exportedDefault (self : Self) : Parser Tree := do
  let second ← peekSecond
  let rest := (← get).rest
  if (← atWord? "function") && isNamed rest.tail then functionOf self FunctionTypes.declared
  else if (← isAsyncFunction) && isNamed rest.tail.tail then functionOf self FunctionTypes.declared
  else if (← atWord? "class") && second.kind = .word && !second.isWord "extends" then
    self (.classOf "class_declaration")
  else
    let value ← self (.assignment false)
    semicolon
    return value

def exportStatement (self : Self) : Parser Tree := do
  let t ← next
  if ← skipWord "default" then
    let value ← exportedDefault self
    nodeAt t "export_statement" [value.withField "value"]
  else if ← at? "*" then
    let names ←
      if (← peekSecond).isWord "as" then (do return [← namespaceOf "namespace_export"])
      else (do
        let _ ← next
        return [])
    let source ← sourceOf
    let node ← nodeAt t "export_statement" (names ++ [source])
    semicolon
    return node
  else if ← at? "\x7b" then
    let clause ← specifiers "export_clause" "export_specifier"
    let source ← if ← atWord? "from" then (do return [← sourceOf]) else pure []
    let node ← nodeAt t "export_statement" (clause :: source)
    semicolon
    return node
  else
    let declared ← if ← atWord? "let" then declaration self else self .statement
    nodeAt t "export_statement" [declared.withField "declaration"]

/-! ## All statements -/

/-- A statement that starts with a word of its own, if the next token is such a word. -/
def keywordStatement? (self : Self) (t second : Token) : Option (Parser Tree) :=
  match t.text with
  | "if" => some (ifStatement self)
  | "for" => some (forStatement self)
  | "while" => some (whileStatement self)
  | "do" => some (doStatement self)
  | "switch" => some (switchStatement self)
  | "try" => some (tryStatement self)
  | "return" => some (returnStatement self)
  | "throw" => some (throwStatement self)
  | "break" => some (jumpStatement "break_statement")
  | "continue" => some (jumpStatement "continue_statement")
  | "debugger" => some debuggerStatement
  | "function" => some (functionOf self FunctionTypes.declared)
  | "class" => some (self (.classOf "class_declaration"))
  | "export" => some (exportStatement self)
  | "import" =>
    if second.isPunctuator "(" || second.isPunctuator "." then none else some importStatement
  | _ => none

def statement (self : Self) : Parser Tree := do
  let t ← peek
  let second ← peekSecond
  if t.isPunctuator "\x7b" then self .block
  else if t.isPunctuator ";" then emptyStatement
  else if t.kind = .word then
    match keywordStatement? self t second with
    | some production => production
    | none =>
      if isDeclaration t second then declaration self
      else if ← isAsyncFunction then functionOf self FunctionTypes.declared
      else if second.isPunctuator ":" then labeledStatement self
      else expressionStatement self
  else expressionStatement self

end Grammar

end ElementLint
