import ElementLint.Grammar.Character
import ElementLint.Tree.Basic

/-!
# Tokens

A token knows where it stands and whether a statement may end before it. An opening bracket also knows the token
after the bracket that closes it, which tells parameters and patterns from expressions.
-/

namespace ElementLint

namespace Grammar

inductive TokenKind where
  /-- A name or a keyword. -/
  | word
  | privateName
  | number
  | string
  | templateQuote
  | templateText
  | templateEscape
  | punctuator
  | endOfText
deriving DecidableEq, Inhabited

structure Token where
  kind : TokenKind
  text : String
  start : Place
  stop : Nat
  /-- Whether a statement may end before this token, after an expression. -/
  endsExpression : Bool := false
  /-- Whether a statement may end before this token, after a word or a name that needs nothing more to be
  a statement or a member. -/
  endsWord : Bool := false
  /-- The spaces after the token before, up to the first comment. -/
  spaces : Text := []
  commented : Bool := false
  /-- The fragments and escapes of a string. -/
  pieces : List Tree := []
  /-- For an opening bracket, the text of the token after the closing one. -/
  follower : String := ""
deriving Inhabited

namespace Token

def label (t : Token) (type : String) : Label where
  type
  start := t.start.byte
  stop := t.stop
  row := t.start.row
  column := t.start.column
  named := true

def leaf (t : Token) (type : String) : Tree := .node (t.label type) t.pieces

def mark (t : Token) : Tree := .node { t.label t.text with named := false } []

def isPunctuator (t : Token) (text : String) : Bool :=
  t.kind == .punctuator && t.text == text

def isWord (t : Token) (text : String) : Bool :=
  t.kind == .word && t.text == text

def opens (t : Token) : Bool :=
  t.kind == .punctuator && ["(", "[", "\x7b", "$\x7b"].contains t.text

def closes (t : Token) : Bool :=
  t.kind == .punctuator && [")", "]", "\x7d"].contains t.text

end Token

/-- Let each opening bracket know the token after its closing one. The tokens come from the last to the
first and `done` holds those after them; `followers` holds the texts after the closing brackets that are
still to be matched. -/
def linkBrackets (done : List Token) (followers : List String) : List Token → List Token
  | [] => done
  | t :: earlier =>
    let next := (done.head?.map (·.text)).getD ""
    if t.closes then linkBrackets (t :: done) (next :: followers) earlier
    else if t.opens then
      linkBrackets ({ t with follower := followers.headD "" } :: done) followers.tail earlier
    else linkBrackets (t :: done) followers earlier

end Grammar

end ElementLint
