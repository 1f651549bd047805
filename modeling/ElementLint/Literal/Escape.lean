import ElementLint.Number.Numeral

/-!
# Escape sequences

What an escape sequence of a string literal denotes: a code point given by octal or hexadecimal
digits, one of the control characters with a letter of its own, nothing for a line continuation, and
otherwise the character after the backslash.
-/

namespace ElementLint

inductive EscapeError where
  | numeral (e : NumeralError)
  /-- Its number is no code point. -/
  | outOfRange
  /-- Its number does not fit in 32 bits. -/
  | tooLarge
deriving DecidableEq

def EscapeError.message : EscapeError → Text
  | .numeral e => e.message
  | .outOfRange => "chr() arg not in range(0x110000)"
  | .tooLarge => "Python int too large to convert to C int"

namespace Escape

def point (n : Int) : Except EscapeError Text :=
  if n < -0x80000000 ∨ 0x80000000 ≤ n then .error .tooLarge
  else if n < 0 ∨ 0x110000 ≤ n then .error .outOfRange
  else .ok [n.toNat]

def pointOf (base : Nat) (digits : Text) : Except EscapeError Text :=
  match Numeral.read base base digits with
  | .error e => .error (.numeral e)
  | .ok n => point n

def isLineEnd (c : Nat) : Bool :=
  c == 0x0A || c == 0x0D || c == 0x2028 || c == 0x2029

/-- What a single character after the backslash denotes. -/
def single (c : Nat) : Nat :=
  match c with
  | 0x6E => 0x0A
  | 0x74 => 0x09
  | 0x72 => 0x0D
  | 0x62 => 0x08
  | 0x66 => 0x0C
  | 0x76 => 0x0B
  | 0x30 => 0x00
  | c => c

/-- The digits of a `\u` escape, with or without braces around them. -/
def unicodeDigits : Text → Text
  | 0x7B :: rest => rest.dropLast
  | rest => rest

def decodeBody : Text → Except EscapeError Text
  | [] => .ok []
  | c :: rest =>
    if isLineEnd c then .ok []
    else if 0x30 ≤ c ∧ c ≤ 0x37 ∧ rest ≠ [] ∧ rest.all Text.isDigit then pointOf 8 (c :: rest)
    else if c = 0x78 ∧ rest.length = 2 then pointOf 16 rest
    else if c = 0x75 then pointOf 16 (unicodeDigits rest)
    else .ok [single c]

/-- What an escape sequence denotes; its first character is the backslash. -/
def decode (t : Text) : Except EscapeError Text :=
  decodeBody t.tail

end Escape

end ElementLint
