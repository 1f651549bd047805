import ElementLint.Number.Decimal
import ElementLint.Text.Lowercase

/-!
# Values of literals

`LiteralValue.ofNumber` reads a number literal. A literal with one of the markers `0x`, `0o` and `0b`,
or with digits only, is a whole number; digits that start with a zero and are all below eight are
octal. Any other one is a decimal fraction, and a text that is no number at all stands for itself.
-/

namespace ElementLint

inductive LiteralValue where
  | text (t : Text)
  | int (n : Int)
  | float (x : Double)
  | bool (b : Bool)
  | null
deriving DecidableEq

namespace LiteralValue

/-- The base that a marker at the start of a literal in lower case stands for. -/
def markedBase? : Text → Option Nat
  | 0x30 :: 0x78 :: _ => some 16
  | 0x30 :: 0x6F :: _ => some 8
  | 0x30 :: 0x62 :: _ => some 2
  | _ => none

/-- The base of a literal of digits only. -/
def digitsBase (digits : Text) : Nat :=
  if 1 < digits.length ∧ digits.head? = some 0x30 ∧ digits.all fun c => 0x30 ≤ c ∧ c ≤ 0x37 then 8
  else 10

/-- A literal without separators and without the letter `n` at its end, in lower case. -/
def normalNumber (raw : Text) : Text :=
  let t := raw.filter (· != Numeral.separator)
  Text.lower (if t.getLast? = some 0x6E then t.dropLast else t)

def ofNumber (raw : Text) : Except NumeralError LiteralValue :=
  let t := normalNumber raw
  match markedBase? t with
  | some base => (Numeral.read base 0 t).map .int
  | none =>
    if !t.isEmpty && t.all Text.isDigit then (Numeral.read (digitsBase t) (digitsBase t) t).map .int
    else
      match Decimal.read? t with
      | some x => .ok (.float x)
      | none => .ok (.text raw)

end LiteralValue

end ElementLint
