import ElementLint.Grammar.LineBreak
import ElementLint.Grammar.Token

/-!
# From characters to tokens

`scan` divides a source text into tokens. A slash always divides or starts a comment; there are no
regular expressions. Inside a template a closing brace ends the substitution if no other brace is open,
so the scanner keeps the braces that are open.
-/

namespace ElementLint

namespace Grammar

/-- A token as it is met: its kind, its characters, its pieces, and the characters after it. -/
structure Lexeme where
  kind : TokenKind
  text : Text
  rest : Text
  pieces : List Tree := []

/-- The punctuators, each before those that it starts with. -/
def punctuators : List Text :=
  [">>>=", "...", "===", "!==", "**=", "<<=", ">>=", ">>>", "&&=", "||=", "??=", "=>", "==", "!=",
    "<=", ">=", "&&", "||", "??", "?.", "++", "--", "+=", "-=", "*=", "/=", "%=", "&=", "|=", "^=",
    "<<", ">>", "**", "(", ")", "[", "]", "\x7b", "\x7d", ";", ",", "<", ">", "+", "-", "*", "/",
    "%", "&", "|", "^", "!", "~", "?", ":", "=", ".", "@"].map Text.ofString

/-- The punctuator at the start of a text. A question mark, a point and a digit are no optional
access. -/
def punctuator? (t : Text) : Option Lexeme :=
  (punctuators.find? fun p =>
    p.isPrefixOf t && !(p == Text.ofString "?." && (t.drop 2).head?.any isDigit)).map
      fun p => ⟨.punctuator, p, t.drop p.length, []⟩

/-- The name at the start of a text: name characters and unicode escapes. -/
def splitName : (fuel : Nat) → Text → Text × Text
  | 0, t => ([], t)
  | fuel + 1, t =>
    match t with
    | 0x5C :: 0x75 :: 0x7B :: rest =>
      let digits := rest.takeWhile isHexDigit
      let (name, after) := splitName fuel (rest.drop (digits.length + 1))
      ([0x5C, 0x75, 0x7B] ++ digits ++ [0x7D] ++ name, after)
    | 0x5C :: 0x75 :: rest =>
      let (name, after) := splitName fuel (rest.drop 4)
      ([0x5C, 0x75] ++ rest.take 4 ++ name, after)
    | c :: rest =>
      if continuesName c then
        let (name, after) := splitName fuel rest
        (c :: name, after)
      else ([], t)
    | [] => ([], [])

def atName (t : Text) : Bool :=
  match t with
  | 0x5C :: 0x75 :: _ => true
  | c :: _ => startsName c
  | [] => false

/-- The length of the digits at the start of a text; between two digits there may be an underscore. -/
def digitsLength (isDigit : Nat → Bool) : Text → Nat
  | [] => 0
  | c :: rest =>
    if isDigit c then
      match rest with
      | 0x5F :: d :: _ => if isDigit d then digitsLength isDigit rest + 1 else 1
      | _ => digitsLength isDigit rest + 1
    else if c = 0x5F && rest.head?.any isDigit then digitsLength isDigit rest + 1
    else 0

def exponentLength (t : Text) : Nat :=
  match t with
  | e :: rest =>
    if e = 0x65 ∨ e = 0x45 then
      let signs := if rest.head?.any fun c => c == 0x2B || c == 0x2D then 1 else 0
      let digits := digitsLength isDigit (rest.drop signs)
      if digits = 0 then 0 else 1 + signs + digits
    else 0
  | [] => 0

/-- Whether digits may stand before a point: a zero alone, or digits with at most one zero at the
start. -/
def isWhole (digits : Text) : Bool :=
  match digits with
  | [0x30] => true
  | 0x30 :: c :: _ => 0x31 ≤ c && c ≤ 0x39
  | c :: _ => isDigit c
  | [] => false

/-- The digits that follow a zero and a letter, if the letter names a base. -/
def baseDigits? (letter : Nat) : Option (Nat → Bool) :=
  if letter = 0x78 ∨ letter = 0x58 then some isHexDigit
  else if letter = 0x6F ∨ letter = 0x4F then some fun c => 0x30 ≤ c && c ≤ 0x37
  else if letter = 0x62 ∨ letter = 0x42 then some fun c => c == 0x30 || c == 0x31
  else none

/-- The length of the decimal number at the start of a text, without the letter `n` at its end. -/
def decimalLength (t : Text) : Nat :=
  let whole := digitsLength isDigit t
  let rest := t.drop whole
  if whole = 0 ∨ isWhole (t.take whole) then
    let fraction := if rest.head? = some 0x2E then 1 + digitsLength isDigit rest.tail else 0
    whole + fraction + exponentLength (rest.drop fraction)
  else whole

/-- The length of the number at the start of a text, without the letter `n` at its end. -/
def numberLength (t : Text) : Nat :=
  match t with
  | 0x30 :: letter :: rest =>
    match baseDigits? letter with
    | some isDigit => 2 + digitsLength isDigit rest
    | none => decimalLength t
  | t => decimalLength t

def number (t : Text) : Lexeme :=
  let size := numberLength t
  let size := if (t.drop size).head? = some 0x6E then size + 1 else size
  ⟨.number, t.take size, t.drop size, []⟩

def escapeLength (t : Text) : Nat :=
  match t.tail with
  | [] => 1
  | 0x0D :: 0x0A :: _ => 3
  | 0x78 :: _ => 4
  | 0x75 :: 0x7B :: rest => 4 + (rest.takeWhile isHexDigit).length
  | 0x75 :: _ => 6
  | c :: rest =>
    let isOctal (c : Nat) : Bool := 0x30 ≤ c && c ≤ 0x37
    if isOctal c then 2 + ((rest.take 2).takeWhile isOctal).length else 2

def piece (type : String) (start : Place) (stop : Nat) : Tree :=
  .node { type, start := start.byte, stop, row := start.row, column := start.column, named := true } []

/-- The pieces of a string up to its closing quote, the characters that they span, and the rest of the
text. -/
def stringPieces (quote : Nat) : (fuel : Nat) → (pieces : List Tree) → (spanned : Text) → Place → Text →
    Option (List Tree × Text × Text)
  | 0, _, _, _, _ => none
  | fuel + 1, pieces, spanned, place, t =>
    match t with
    | [] => none
    | c :: rest =>
      if c = quote then some (pieces.reverse, spanned, rest)
      else
        let escape := c == 0x5C
        let taken :=
          if escape then t.take (escapeLength t) else t.takeWhile fun c => c != quote && c != 0x5C
        let next := place.afterText taken
        let type := if escape then "escape_sequence" else "string_fragment"
        stringPieces quote fuel (piece type place next.byte :: pieces) (spanned ++ taken) next
          (t.drop taken.length)

/-- The string at the start of a text, of at most `fuel` pieces. -/
def string? (fuel : Nat) (start : Place) (quote : Nat) (rest : Text) : Option Lexeme :=
  (stringPieces quote fuel [] [] (start.after quote) rest).map
    fun (pieces, spanned, after) => ⟨.string, quote :: spanned ++ [quote], after, pieces⟩

/-- The text of a template up to the next escape, substitution or quote. -/
def templateText : Text → Text
  | [] => []
  | c :: rest =>
    if c = 0x60 ∨ c = 0x5C ∨ (c = 0x24 ∧ rest.head? = some 0x7B) then []
    else c :: templateText rest

/-- The brackets that the scanner is inside of. -/
inductive Nesting where
  | brace
  | template
  | substitution
  | group
deriving DecidableEq

/-- The token at the start of a text that is no part of a template; `fuel` is at least the length of the
text. -/
def lexeme? (fuel : Nat) (place : Place) (t : Text) : Option Lexeme :=
  match t with
  | [] => none
  | c :: rest =>
    if c = 0x22 ∨ c = 0x27 then string? fuel place c rest
    else if c = 0x60 then some ⟨.templateQuote, [c], rest, []⟩
    else if isDigit c ∨ (c = 0x2E ∧ rest.head?.any isDigit) then some (number t)
    else if c = 0x23 then
      let (name, after) := splitName fuel rest
      some ⟨.privateName, c :: name, after, []⟩
    else if atName t then
      let (name, after) := splitName fuel t
      some ⟨.word, name, after, []⟩
    else punctuator? t

def templateLexeme (t : Text) : Option Lexeme :=
  match t with
  | [] => none
  | 0x60 :: rest => some ⟨.templateQuote, [0x60], rest, []⟩
  | 0x24 :: 0x7B :: rest => some ⟨.punctuator, [0x24, 0x7B], rest, []⟩
  | 0x5C :: _ => some ⟨.templateEscape, t.take (escapeLength t), t.drop (escapeLength t), []⟩
  | t => let text := templateText t; some ⟨.templateText, text, t.drop text.length, []⟩

def nestingAfter (nesting : List Nesting) (l : Lexeme) : List Nesting :=
  match l.kind, nesting with
  | .templateQuote, .template :: outer => outer
  | .templateQuote, nesting => .template :: nesting
  | .punctuator, nesting =>
    if l.text = "$\x7b" then .substitution :: nesting
    else if l.text = "\x7b" then .brace :: nesting
    else if l.text = "(" || l.text = "[" then .group :: nesting
    else if l.text = "\x7d" || l.text = ")" || l.text = "]" then nesting.tail
    else nesting
  | _, nesting => nesting

/-- What the scanner has found: the tokens, the last first, and the first place that is no space. -/
structure Scanned where
  tokens : List Token
  first : Option Place

/-- Whether statements can stand directly inside these brackets. -/
def holdsStatements (nesting : List Nesting) : Bool :=
  nesting.head? != some .group && nesting.head? != some .substitution

/-- Divide a text into tokens from a place on; `gap` is the text from the end of the token before, and
`bound` is more than the length of the whole text. -/
def scanFrom (bound : Nat) : (fuel : Nat) → (found : Scanned) → (nesting : List Nesting) → (gap : Text) →
    Place → Text → Option (Scanned × Place)
  | 0, _, _, _, _, _ => none
  | fuel + 1, found, nesting, gap, place, t =>
    let inTemplate := nesting.head? == some .template
    match t with
    | [] => if nesting.isEmpty then some (found, place) else none
    | c :: rest =>
      if !inTemplate && isSpace c then scanFrom bound fuel found nesting gap (place.after c) rest
      else
        let found := { found with first := found.first.or (some place) }
        match if inTemplate then none else comment? t with
        | some comment =>
          scanFrom bound fuel found nesting gap (place.afterText comment) (t.drop comment.length)
        | none =>
          match if inTemplate then templateLexeme t else lexeme? (fuel + 1) place t with
          | none => none
          | some l =>
            let stop := place.afterText l.text
            let inStatement := holdsStatements nesting
            let token : Token :=
              { kind := l.kind, text := Text.toDisplay l.text, start := place, stop := stop.byte,
                pieces := l.pieces
                endsExpression := inStatement && endsStatement false bound gap
                endsWord := inStatement && endsStatement true bound gap
                spaces := gap.takeWhile isSpace
                commented := (comment? (gap.dropWhile isSpace)).isSome }
            scanFrom bound fuel { found with tokens := token :: found.tokens } (nestingAfter nesting l)
              l.rest stop l.rest

/-- The tokens of a source text with the end at their last, and the place at which the program starts:
the first that is no space. -/
def scan (t : Text) : Option (List Token × Place) := do
  let bound := t.length + 1
  let (found, stop) ← scanFrom bound bound ⟨[], none⟩ [] t {} t
  let last : Token :=
    { kind := .endOfText, text := "", start := stop, stop := stop.byte, endsExpression := true,
      endsWord := true }
  return (linkBrackets [] [] (last :: found.tokens), found.first.getD stop)

end Grammar

end ElementLint
