import ElementLint.Text.Printable

/-!
# Quoted texts

A quoted text stands between single quotes, or between double quotes when it holds a single quote and
no double one. The quote, the backslash and every code point that is not printable are escaped.
-/

namespace ElementLint

namespace Text

def hexDigit (d : Nat) : Nat :=
  if d < 10 then 0x30 + d else 0x57 + d

/-- The last `width` hexadecimal digits of a number. -/
def hex : (width : Nat) → Nat → Text
  | 0, _ => []
  | width + 1, n => hex width (n / 16) ++ [hexDigit (n % 16)]

def quotePoint (quote c : Nat) : Text :=
  if c = quote ∨ c = 0x5C then [0x5C, c]
  else if c = 0x0A then "\\n"
  else if c = 0x0D then "\\r"
  else if c = 0x09 then "\\t"
  else if isPrintable c then [c]
  else if c < 0x100 then "\\x" ++ hex 2 c
  else if c < 0x10000 then "\\u" ++ hex 4 c
  else "\\U" ++ hex 8 c

def quoteFor (t : Text) : Nat :=
  if t.elem 0x27 && !t.elem 0x22 then 0x22 else 0x27

def quoted (t : Text) : Text :=
  [quoteFor t] ++ t.flatMap (quotePoint (quoteFor t)) ++ [quoteFor t]

end Text

end ElementLint
