import ElementLint.Grammar.Character

/-!
# Semicolons that are left out

A statement may end without a semicolon where a line ends, at a closing brace, and at the end of the
text. Whether it does is told by the characters from its last token on: `endsStatement` goes over spaces
and comments to the end of the line, and from there to the character that comes next. A character that could
carry on an expression, such as an opening parenthesis, does not let the statement end.

After an expression a comment counts as a space. After a word such as `return`, which needs nothing more to
be a statement, a comment ends the statement if a line ends in it or after it. This is the argument
`bare`.
-/

namespace ElementLint

namespace Grammar

/-- Characters at which a line ends, as far as semicolons are concerned. -/
def breaksLine (c : Nat) : Bool :=
  c == 0x0A || c == 0x2028 || c == 0x2029

/-- Spaces that a semicolon may be left out behind; a space that forbids a line break is none. -/
def isPlainSpace (c : Nat) : Bool :=
  (9 ≤ c && c ≤ 13) || c == 32 || c == 0x1680 || (0x2000 ≤ c && c ≤ 0x2006) ||
    (0x2008 ≤ c && c ≤ 0x200A) || c == 0x2028 || c == 0x2029 || c == 0x205F || c == 0x3000

def isLetter (c : Nat) : Bool :=
  (0x41 ≤ c && c ≤ 0x5A) || (0x61 ≤ c && c ≤ 0x7A) || (0x80 ≤ c && !isSpace c)

def comment? (t : Text) : Option Text :=
  match t with
  | 0x2F :: 0x2F :: rest => some ([0x2F, 0x2F] ++ rest.takeWhile (!isLineEnd ·))
  | 0x2F :: 0x2A :: rest => some ([0x2F, 0x2A] ++ blockRest rest)
  | _ => none
where
  /-- The characters up to the end of a comment between slashes. -/
  blockRest : Text → Text
    | [] => []
    | 0x2A :: 0x2F :: _ => [0x2A, 0x2F]
    | c :: rest => c :: blockRest rest

/-- Whether a line ends in the comment that the text is inside of, and the text after the comment. -/
def commentRest : Text → Bool × Text
  | [] => (false, [])
  | 0x2A :: 0x2F :: rest => (false, rest)
  | c :: rest =>
    let (broken, after) := commentRest rest
    (broken || breaksLine c, after)

/-- Go over spaces and comments: the text after them, and whether a line may have ended. With `all`
every comment is gone over; otherwise the first comment between slashes and stars is the last, unless
another comment follows at once. A slash that starts no comment gives nothing. -/
def overComments (all : Bool) : (fuel : Nat) → (broken : Bool) → Text → Option (Bool × Text)
  | 0, _, _ => none
  | fuel + 1, broken, t =>
    match t.dropWhile isPlainSpace with
    | 0x2F :: 0x2F :: rest => overComments all fuel broken (rest.dropWhile (!breaksLine ·))
    | 0x2F :: 0x2A :: rest =>
      let (inside, after) := commentRest rest
      let broken := broken || inside
      if all || after.isEmpty || after.head? = some 0x2F then overComments all fuel broken after
      else some (broken, after)
    | 0x2F :: _ => none
    | t => some (true, t)

def atWordOperator (t : Text) : Bool :=
  let isWord (word : Text) : Bool := word.isPrefixOf t && !(t.drop word.length).head?.any isLetter
  isWord "in" || isWord "instanceof"

/-- Whether a line that starts like this lets the statement before it end. -/
def startsAnew (t : Text) : Bool :=
  match t with
  | [] => true
  | c :: rest =>
    if c = 0x2E then rest.head?.any isDigit
    else if c = 0x2B ∨ c = 0x2D then rest.head? == some c
    else if c = 0x21 then rest.head? != some 0x3D
    else !(Text.ofString ",:;*%><=[(?^|&/").elem c && c != 0x60 && !atWordOperator t

/-- What a part of the text after a token tells about the end of the statement. -/
inductive Step where
  | ends
  | stays
  | goes (rest : Text)

def stepOverComment (bare : Bool) (fuel : Nat) (t : Text) : Step :=
  match t with
  | 0x2F :: _ =>
    match overComments false fuel false t with
    | none => .stays
    | some (broken, after) =>
      if broken && bare && after.head? != some 0x2C && after.head? != some 0x3D then .ends
      else if after.isEmpty then .stays
      else .goes after
  | t => .goes t

/-- Go over the first character of a text, or over the end of a line and all spaces and comments behind
it. -/
def stepOverCharacter (fuel : Nat) (t : Text) : Step :=
  match t with
  | [] => .ends
  | c :: rest =>
    if c = 0x7D then .ends
    else if breaksLine c then
      match overComments true fuel false rest with
      | none => .stays
      | some (_, after) => if startsAnew after then .ends else .stays
    else if isPlainSpace c then .goes rest
    else .stays

/-- Whether a statement may end right before a text, which goes on with spaces and comments. -/
def endsBefore (bare : Bool) : (fuel : Nat) → Text → Bool
  | 0, _ => false
  | fuel + 1, t =>
    match stepOverComment bare (fuel + 1) t with
    | .ends => true
    | .stays => false
    | .goes t =>
      match stepOverCharacter (fuel + 1) t with
      | .ends => true
      | .stays => false
      | .goes rest => endsBefore bare fuel rest

/-- The text after the first comment, if only spaces stand before it. -/
def afterComment? (t : Text) : Option Text :=
  let t := t.dropWhile isSpace
  (comment? t).map fun comment => t.drop comment.length

/-- Whether a statement may end between a token and the next one; the text starts after the first of
them, and `fuel` is at least its length. -/
def endsStatement (bare : Bool) : (fuel : Nat) → Text → Bool
  | 0, _ => false
  | fuel + 1, t =>
    endsBefore bare (fuel + 1) t ||
      match afterComment? t with
      | some rest => endsStatement bare fuel rest
      | none => false

end Grammar

end ElementLint
