/-!
# Binary floating-point numbers

A double is kept as its 64 bits, so that two of them can be told apart. `ofRatio` rounds a quotient
of natural numbers to the nearest double, a tie to the even one, and is exact integer arithmetic;
`ofDecimal` and `roundTo` go through it.
-/

namespace ElementLint

/-- A binary floating-point number of 64 bits: sign, eleven bits of exponent, 52 of fraction. -/
structure Double where
  bits : UInt64
deriving DecidableEq, Inhabited

namespace Double

/-- A quotient rounded to the nearest natural number, a tie to the even one. -/
def roundDiv (num den : Nat) : Nat :=
  let q := num / den
  let r := num % den
  if den < 2 * r ∨ (2 * r = den ∧ q % 2 = 1) then q + 1 else q

def infinity : Double := ⟨0x7FF0000000000000⟩

def nan : Double := ⟨0x7FF8000000000000⟩

def zero : Double := ⟨0⟩

def neg (x : Double) : Double := ⟨x.bits ^^^ 0x8000000000000000⟩

def isNegative (x : Double) : Bool := x.bits ≥ 0x8000000000000000

def fractionCount : Nat := 0x10000000000000

def exponentBits (x : Double) : Nat := x.bits.toNat / fractionCount % 0x800

def fractionBits (x : Double) : Nat := x.bits.toNat % fractionCount

/-- Whether the double is neither infinite nor `nan`. -/
def isFinite (x : Double) : Bool := x.exponentBits != 0x7FF

def isNaN (x : Double) : Bool := !x.isFinite && x.fractionBits != 0

/-- The magnitude of a finite double is `mantissa * 2 ^ scale`. -/
def mantissa (x : Double) : Nat :=
  if x.exponentBits = 0 then x.fractionBits else fractionCount + x.fractionBits

def scale (x : Double) : Int :=
  max (x.exponentBits : Int) 1 - 1075

/-- The power of a base as a quotient: `base ^ e` over 1 for `0 ≤ e`, and 1 over `base ^ -e` for
`e ≤ 0`. -/
def powers (base : Nat) (e : Int) : Nat × Nat :=
  (base.pow e.toNat, base.pow (-e).toNat)

def ratio (x : Double) : Nat × Nat :=
  let (up, down) := powers 2 x.scale
  (x.mantissa * up, down)

/-- The double nearest to `num / den`, a tie going to the even one; infinity past the largest. -/
def ofRatio (num den : Nat) : Double :=
  if num = 0 ∨ den = 0 then zero
  else
    -- The quotient lies from `2 ^ e` up to `2 ^ (e + 1)`.
    let guess : Int := num.log2 - den.log2
    let (up, down) := powers 2 guess
    let e := if den * up ≤ num * down then guess else guess - 1
    -- The mantissa counts units of `2 ^ unit`, which are never finer than the least double.
    let unit := max (e - 52) (-1074)
    let (up, down) := powers 2 unit
    let bits := (unit + 1074).toNat * fractionCount + roundDiv (num * down) (den * up)
    if 0x7FF * fractionCount ≤ bits then infinity else ⟨bits.toUInt64⟩

/-- The double nearest to `digits * 10 ^ exponent`. Far beyond the range of doubles the powers of ten
are not written out. -/
def ofDecimal (digits : Nat) (exponent : Int) : Double :=
  let magnitude : Int := (Nat.toDigits 10 digits).length + exponent
  if digits = 0 ∨ magnitude < -400 then zero
  else if 400 < magnitude then infinity
  else
    let (up, down) := powers 10 exponent
    ofRatio (digits * up) down

/-- The double nearest to the value rounded to a number of decimal places, ties to even; the value
itself when it is not finite. -/
def roundTo (places : Nat) (x : Double) : Double :=
  if x.isFinite then
    let (num, den) := x.ratio
    let units := Nat.pow 10 places
    let magnitude := ofRatio (roundDiv (num * units) den) units
    if x.isNegative then magnitude.neg else magnitude
  else x

def add (x y : Double) : Double :=
  ⟨(Float.ofBits x.bits + Float.ofBits y.bits).toBits⟩

instance : Add Double := ⟨add⟩

def positivePart (x : Double) : Double :=
  if x.isNegative || x.isNaN then zero else x

end Double

end ElementLint
