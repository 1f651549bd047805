import ElementLint.Grammar.Scan
import ElementLint.Grammar.Statement
import ElementLint.Lint.Load

/-!
# Parsing programs

`parse` gives the concrete tree of a source text in plain JavaScript: no regular expressions, markup or
decorators. A text outside that grammar gives a tree that is one error; one that nests too deeply gives
none.
-/

namespace ElementLint

namespace Grammar

def production (self : Self) : Goal → Parser Tree
  | .statement => statement self
  | .block => block self
  | .expression noIn => expression self noIn
  | .assignment noIn => assignment self noIn
  | .operation level noIn => operation self level noIn
  | .unary => unary self
  | .access => access self
  | .constructor => constructor self
  | .pattern => pattern self
  | .propertyName => propertyName self
  | .classOf type => classOf self type

/-- Read a goal inside which goals nest less than `depth` levels deep. -/
def read : (depth : Nat) → Goal → Parser Tree
  | 0, _ => throw .tooDeep
  | depth + 1, goal => production (read depth) goal

/-- How deep goals may nest. It is more than a program within the limit on nodes can need. -/
def maxDepth : Nat := 1900

def programBody : Parser (List Tree) :=
  Parser.many do
    if (← Parser.peek).kind = .endOfText then return none
    else return some [← read maxDepth .statement]

def rootLabel (type : String) (start : Place) (stop : Nat) (hasError : Bool) : Label where
  type
  start := start.byte
  stop
  row := start.row
  column := start.column
  named := true
  hasError

end Grammar

/-- The concrete tree of a source text; nothing if it nests too deeply. -/
def parse : Grammar := fun bytes =>
  match Grammar.scan (Utf8.decodeLossy bytes) with
  | none => some (.node (Grammar.rootLabel "ERROR" {} bytes.length true) [])
  | some (tokens, start) =>
    match (Grammar.programBody.run { rest := tokens, bound := tokens.length }) with
    | .ok (body, _) => some (.node (Grammar.rootLabel "program" start bytes.length false) body)
    | .error .mismatch => some (.node (Grammar.rootLabel "ERROR" start bytes.length true) [])
    | .error .tooDeep => none

end ElementLint
