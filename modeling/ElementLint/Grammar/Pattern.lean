import ElementLint.Grammar.Parser

/-!
# Patterns

Targets of declarations, parameters and assignments: an identifier, an access, or names in brackets or
braces that take a value apart.
-/

namespace ElementLint

namespace Grammar

open ElementLint.Grammar.Parser

/-- The name of a property: a word, a private name, a string, a number, or an expression in brackets. -/
def propertyName (self : Self) : Parser Tree := do
  let t ← next
  match t.kind with
  | .word => return t.leaf "property_identifier"
  | .privateName => return t.leaf "private_property_identifier"
  | .string => return t.leaf "string"
  | .number => return t.leaf "number"
  | _ =>
    if t.isPunctuator "[" then
      let expr ← self (.assignment false)
      let _ ← punctuator "]"
      nodeAt t "computed_property_name" [expr]
    else mismatch

def patternWithDefault (self : Self) : Parser Tree := do
  let target ← self .pattern
  if ← skip "=" then
    let value ← self (.assignment false)
    nodeFrom target "assignment_pattern" [target.withField "left", value.withField "right"]
  else return target

def restPattern (self : Self) : Parser Tree := do
  let dots ← punctuator "..."
  let target ← self .pattern
  nodeAt dots "rest_pattern" [target]

def arrayPatternItem (self : Self) : Parser (List Tree) := do
  if ← at? "," then return []
  else if ← at? "..." then return [← restPattern self]
  else return [← patternWithDefault self]

/-- A name without a value in an object pattern, and the default that may follow it. -/
def shorthandPattern (self : Self) (t : Token) : Parser Tree := do
  let name := t.leaf "shorthand_property_identifier_pattern"
  if ← skip "=" then
    let value ← self (.assignment false)
    nodeAt t "object_assignment_pattern" [name.withField "left", value.withField "right"]
  else return name

def objectPatternItem (self : Self) : Parser (List Tree) := do
  let t ← peek
  if t.isPunctuator "..." then return [← restPattern self]
  else
    let second ← peekSecond
    if t.kind = .word && !second.isPunctuator ":" then
      let t ← next
      return [← shorthandPattern self t]
    else
      let key ← self .propertyName
      let _ ← punctuator ":"
      let value ← patternWithDefault self
      return [← nodeFrom key "pair_pattern" [key.withField "key", value.withField "value"]]

def opensList (t : Token) : Bool := t.isPunctuator "[" || t.isPunctuator "\x7b"

def destructuring (self : Self) : Parser Tree := do
  let t ← next
  if t.text = "[" then
    let items ← listUpTo "]" (arrayPatternItem self)
    nodeAt t "array_pattern" items
  else
    let items ← listUpTo "\x7d" (objectPatternItem self)
    nodeAt t "object_pattern" items

/-- Whether the brackets that a token opens hold a value that an access or a call starts from. -/
def opensAccess (t : Token) : Bool := [".", "?.", "[", "(", "\x60"].contains t.follower

def pattern (self : Self) : Parser Tree := do
  let t ← peek
  if opensList t && !opensAccess t then destructuring self else self .access

def binding (self : Self) : Parser Tree := do
  if opensList (← peek) then destructuring self else identifier

end Grammar

end ElementLint
