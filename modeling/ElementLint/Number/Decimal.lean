import ElementLint.Number.Double
import ElementLint.Number.Numeral

/-!
# Decimal fractions

`Decimal.read?` reads a decimal fraction with an optional exponent, or one of the words for infinity
and for no number; `Double.shown` writes a double with the fewest digits that read back as the same
double.
-/

namespace ElementLint

namespace Decimal

def isDigit (c : Nat) : Bool := Numeral.isDigitOf 10 c

/-- The exponent at the start of a text: nothing, or `e`, a sign and digits up to the end. -/
def readExponent? : Text → Option Int
  | [] => some 0
  | 0x65 :: t =>
    let (negative, digits) := Numeral.splitSign t
    if digits.isEmpty || !digits.all isDigit then none
    else
      let n := Numeral.value 10 digits
      some (if negative then -(n : Int) else n)
  | _ => none

/-- A decimal fraction: digits, then a point and digits, of which one part may be missing. -/
def readFraction? (t : Text) : Option Double := do
  let whole := t.takeWhile isDigit
  let rest := t.dropWhile isDigit
  let (places, tail) :=
    match rest with
    | 0x2E :: r => (r.takeWhile isDigit, r.dropWhile isDigit)
    | r => ([], r)
  guard !(whole ++ places).isEmpty
  let e ← readExponent? tail
  return Double.ofDecimal (Numeral.value 10 (whole ++ places)) (e - places.length)

def read? (t : Text) : Option Double := do
  let (negative, unsigned) := Numeral.splitSign (Numeral.plain t)
  let magnitude ←
    if unsigned = "inf" ∨ unsigned = "infinity" then some Double.infinity
    else if unsigned = "nan" then some Double.nan
    else readFraction? unsigned
  return if negative && !magnitude.isNaN then magnitude.neg else magnitude

end Decimal

namespace Double

/-- The two neighbours of a quotient among the multiples of `10 ^ e`, counted in that unit: the nearer
one first, and of two that are equally near the even one. -/
def neighbours (num den : Nat) (e : Int) : List Nat :=
  let (up, down) := powers 10 e
  let q := num * down / (den * up)
  if roundDiv (num * down) (den * up) = q then [q, q + 1] else [q + 1, q]

/-- The shortest digits that read back as `x`, and the power of ten that they count: the search starts
at the unit `10 ^ e` and makes it ten times finer at each step. -/
def shortestFrom (x : Double) (num den : Nat) : (fuel : Nat) → (e : Int) → Nat × Int
  | 0, e => ((neighbours num den e).headD 0, e)
  | fuel + 1, e =>
    match (neighbours num den e).find? fun d => (ofDecimal d e).bits == x.bits with
    | some d => (d, e)
    | none => shortestFrom x num den fuel (e - 1)

/-- The digits without the zeros at their end, and the power of ten that they then count. -/
def trimZeros : (fuel : Nat) → Nat → Int → Nat × Int
  | 0, d, e => (d, e)
  | fuel + 1, d, e => if d ≠ 0 ∧ d % 10 = 0 then trimZeros fuel (d / 10) (e + 1) else (d, e)

/-- The shortest digits of a positive finite double, and the power of ten that they count. -/
def shortest (x : Double) : Nat × Int :=
  let (num, den) := x.ratio
  let top : Int := ((Nat.toDigits 10 num).length : Int) - (Nat.toDigits 10 den).length
  let (d, e) := shortestFrom x num den 20 top
  trimZeros 20 d e

def zeros (n : Nat) : Text := List.replicate n 0x30

/-- Digits as decimal notation: positional while the first digit stands at most four places after the
point and at most sixteen before it, and with an exponent otherwise. -/
def layout (digits : Text) (e : Int) : Text :=
  let point : Int := digits.length + e
  if -4 < point ∧ point ≤ 16 then
    if point ≤ 0 then "0." ++ zeros (-point).toNat ++ digits
    else if 0 ≤ e then digits ++ zeros e.toNat ++ ".0"
    else digits.take point.toNat ++ "." ++ digits.drop point.toNat
  else
    let fraction : Text := if digits.length ≤ 1 then [] else "." ++ digits.drop 1
    let power := point - 1
    let size := Text.ofNat power.natAbs
    let size := if size.length < 2 then "0" ++ size else size
    digits.take 1 ++ fraction ++ "e" ++ (if power < 0 then "-" else "+") ++ size

def shown (x : Double) : Text :=
  if x.isNaN then "nan"
  else
    let sign : Text := if x.isNegative then "-" else []
    let magnitude : Double := if x.isNegative then x.neg else x
    if !x.isFinite then sign ++ "inf"
    else if magnitude.bits = 0 then sign ++ "0.0"
    else
      let (d, e) := magnitude.shortest
      sign ++ layout (Text.ofNat d) e

end Double

end ElementLint
