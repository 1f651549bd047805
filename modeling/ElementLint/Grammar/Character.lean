import ElementLint.Text.Utf8

/-!
# Characters of JavaScript source

Which characters divide tokens and which make up names, and how far a character moves the place in the
source.
-/

namespace ElementLint

namespace Grammar

def isSpace (c : Nat) : Bool :=
  (9 ≤ c && c ≤ 13) || c == 32 || c == 0x85 || c == 0xA0 || c == 0x1680 ||
    (0x2000 ≤ c && c ≤ 0x200B) || c == 0x2028 || c == 0x2029 || c == 0x202F || c == 0x205F ||
    c == 0x2060 || c == 0x3000 || c == 0xFEFF

def isLineEnd (c : Nat) : Bool :=
  c == 0x0A || c == 0x0D || c == 0x2028 || c == 0x2029

def isDigit (c : Nat) : Bool := 0x30 ≤ c && c ≤ 0x39

def isHexDigit (c : Nat) : Bool :=
  isDigit c || (0x41 ≤ c && c ≤ 0x46) || (0x61 ≤ c && c ≤ 0x66)

/-- Characters that a name can start with: letters, the dollar sign, the underscore, and every character
beyond ASCII that is no space. -/
def startsName (c : Nat) : Bool :=
  (0x41 ≤ c && c ≤ 0x5A) || (0x61 ≤ c && c ≤ 0x7A) || c == 0x24 || c == 0x5F ||
    (0x80 ≤ c && !isSpace c)

def continuesName (c : Nat) : Bool := startsName c || isDigit c

def byteSize (c : Nat) : Nat :=
  if c < 0x80 then 1 else if c < 0x800 then 2 else if c < 0x10000 then 3 else 4

theorem byteSize_eq (c : Nat) : byteSize c = (Utf8.encodePoint c).length := by
  simp only [byteSize, Utf8.encodePoint]
  repeat' split
  all_goals rfl

/-- A place between two characters: the bytes before it, the lines before it, and the bytes before it on
its line. -/
structure Place where
  byte : Nat := 0
  row : Nat := 0
  column : Nat := 0
deriving DecidableEq, Inhabited

namespace Place

def after (p : Place) (c : Nat) : Place :=
  if c = 0x0A then ⟨p.byte + 1, p.row + 1, 0⟩
  else ⟨p.byte + byteSize c, p.row, p.column + byteSize c⟩

def afterText (p : Place) (t : Text) : Place := t.foldl after p

@[simp] theorem afterText_nil (p : Place) : p.afterText [] = p := rfl

theorem afterText_cons (p : Place) (c : Nat) (t : Text) :
    p.afterText (c :: t) = (p.after c).afterText t := rfl

theorem afterText_append (p : Place) (s t : Text) :
    p.afterText (s ++ t) = (p.afterText s).afterText t := by
  simp [afterText]

end Place

end Grammar

end ElementLint
