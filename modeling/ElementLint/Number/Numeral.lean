import ElementLint.Text.Digit
import ElementLint.Text.Quoted

/-!
# Integer numerals

A numeral is read in a given base: white space around it, a sign, the base's own marker (`0x`, `0o`
or `0b`), then digits of any script with single underscores between them. A numeral whose base is no
power of two may have at most `maxDigits` digits.
-/

namespace ElementLint

inductive NumeralError where
  /-- The text does not follow the grammar of the base that was asked for. -/
  | malformed (base : Nat) (text : Text)
  | tooLong (digits : Nat)
deriving DecidableEq

namespace Numeral

/-- The number of digits above which a numeral is refused, unless its base is a power of two. -/
def maxDigits : Nat := 4300

end Numeral

/-- The wording of an error; a long text is quoted up to 200 characters. -/
def NumeralError.message : NumeralError → Text
  | .malformed base text =>
    "invalid literal for int() with base " ++ Text.ofNat base ++ ": " ++ (Text.quoted text).take 200
  | .tooLong digits =>
    "Exceeds the limit (" ++ Text.ofNat Numeral.maxDigits ++
      " digits) for integer string conversion: value has " ++ Text.ofNat digits ++
      " digits; use sys.set_int_max_str_digits() to increase the limit"

namespace Numeral

/-- A character with digits of all scripts written in ASCII and white space beyond ASCII as a space.
What has no place in a numeral becomes a question mark. -/
def plainPoint (c : Nat) : Nat :=
  if c < 0x80 then c
  else
    match Text.decimal? c with
    | some d => 0x30 + d
    | none => if Text.isBlank c then 0x20 else 0x3F

/-- The white space that may stand around a numeral. -/
def isSpace (c : Nat) : Bool :=
  (9 ≤ c && c ≤ 13) || c == 32

/-- A text in plain characters, without the white space around it. -/
def plain (t : Text) : Text :=
  (((t.map plainPoint).dropWhile isSpace).reverse.dropWhile isSpace).reverse

/-- The value of a digit, letters counting from ten. -/
def digit? (c : Nat) : Option Nat :=
  if 0x30 ≤ c ∧ c ≤ 0x39 then some (c - 0x30)
  else if 0x61 ≤ c ∧ c ≤ 0x7A then some (c - 0x57)
  else if 0x41 ≤ c ∧ c ≤ 0x5A then some (c - 0x37)
  else none

def isDigitOf (base c : Nat) : Bool :=
  match digit? c with
  | some d => d < base
  | none => false

def separator : Nat := 0x5F

/-- Whether underscores stand singly and between digits only. -/
def wellSeparated (run : Text) : Bool :=
  run.head? != some separator && run.getLast? != some separator &&
    !Text.contains run [separator, separator]

/-- The value of digits in a base; other characters do not count. -/
def value (base : Nat) (digits : Text) : Nat :=
  digits.foldl (fun n c => match digit? c with | some d => n * base + d | none => n) 0

@[simp] theorem value_nil (base : Nat) : value base [] = 0 := rfl

/-- A digit more multiplies the value by the base and adds the digit. -/
theorem value_concat (base : Nat) (digits : Text) (c d : Nat) (h : digit? c = some d) :
    value base (digits ++ [c]) = value base digits * base + d := by
  simp [value, h]

/-- The letter that marks a base after a zero, in lower case. -/
def marker? : Nat → Option Nat
  | 16 => some 0x78
  | 8 => some 0x6F
  | 2 => some 0x62
  | _ => none

/-- The text after the base's own marker and at most one underscore, or all of it if there is no
marker. -/
def dropMarker (base : Nat) (t : Text) : Text :=
  match t, marker? base with
  | 0x30 :: m :: rest, some letter =>
    if m = letter ∨ m + 32 = letter then
      match rest with
      | 0x5F :: rest => rest
      | rest => rest
    else t
  | _, _ => t

def splitSign : Text → Bool × Text
  | 0x2D :: t => (true, t)
  | 0x2B :: t => (false, t)
  | t => (false, t)

/-- Read a numeral in a base of which an error says that it was `named`. -/
def read (base named : Nat) (t : Text) : Except NumeralError Int :=
  let (negative, unsigned) := splitSign (plain t)
  let body := dropMarker base unsigned
  let inRun := fun c => c == separator || isDigitOf base c
  let run := body.takeWhile inRun
  let digits := run.filter (· != separator)
  if !wellSeparated run then .error (.malformed named t)
  else if (marker? base).isNone && maxDigits < digits.length then .error (.tooLong digits.length)
  else if digits.isEmpty || !(body.dropWhile inRun).isEmpty then .error (.malformed named t)
  else .ok (if negative then -(value base digits : Int) else value base digits)

end Numeral

end ElementLint
