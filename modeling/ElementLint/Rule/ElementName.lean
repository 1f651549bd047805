import ElementLint.Text.Ranges

/-!
# Names of custom elements

A custom element name starts with a small letter, goes on with the name characters of the HTML
standard, and has a hyphen. Eight such names are reserved. A name may be valid and still be a bad choice:
because frameworks use its start, or because it is easily mistyped.
-/

namespace ElementLint

namespace ElementName

def nameRanges : List (Nat × Nat) :=
  [(0x2D, 0x2D), (0x2E, 0x2E), (0x5F, 0x5F), (0x30, 0x39), (0x61, 0x7A), (0xB7, 0xB7), (0xC0, 0xD6),
    (0xD8, 0xF6), (0xF8, 0x37D), (0x37F, 0x1FFF), (0x200C, 0x200D), (0x203F, 0x2040),
    (0x2070, 0x218F), (0x2C00, 0x2FEF), (0x3001, 0xD7FF), (0xF900, 0xFDCF), (0xFDF0, 0xFFFD),
    (0x10000, 0xEFFFF)]

def isNameChar (c : Nat) : Bool :=
  nameRanges.any fun r => r.1 ≤ c && c ≤ r.2

def isFirstChar (c : Nat) : Bool :=
  0x61 ≤ c && c ≤ 0x7A

def hyphen : Nat := 0x2D

def isPotential : Text → Bool
  | [] => false
  | c :: rest => isFirstChar c && rest.all isNameChar && rest.elem hyphen

/-- The names of that form that stand for elements of other vocabularies. -/
def reserved : List Text :=
  ["annotation-xml", "color-profile", "font-face", "font-face-src", "font-face-uri",
    "font-face-format", "font-face-name", "missing-glyph"]

def isValid (name : Text) : Bool :=
  isPotential name && !reserved.elem name

/-- The beginnings of names that frameworks use. -/
def discouragedStarts : List Text :=
  ["xml", "polymer-", "ng-", "x-"]

/-- Whether a name is free of what makes names clash or easy to mistype. -/
def isBestPractice (name : Text) : Bool :=
  !discouragedStarts.any (·.isPrefixOf name) && name.getLast? != some hyphen &&
    !Text.contains name "--" && !name.elem 0x2E

end ElementName

end ElementLint
