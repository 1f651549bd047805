import ElementLint.Json.Basic

/-!
# Reading JSON

`Json.read` reads one value that fills a whole text. Numbers with a point or an exponent are
fractions, `NaN`, `Infinity` and `-Infinity` are numbers too, a lone surrogate escape is kept, and
lists and objects nest at most `Json.maxDepth` deep.

A reader takes the text that is left and returns a value with the text after it. The readers of
values, lists and objects call one another; a list or an object hands the text on to the reader of its
first value, and every other call uses up a character, so twice the length of the text is fuel enough.
-/

namespace ElementLint

inductive JsonError where
  | expectedValue
  | expectedName
  | expectedColon
  | expectedComma
  | extraData
  | unterminated
  | controlCharacter
  | badEscape
  | badUnicodeEscape
  | byteOrderMark
  | numeral (e : NumeralError)
  /-- Lists (or objects, if `inObject`) nest too deeply. -/
  | tooDeep (inObject : Bool)
deriving DecidableEq

namespace JsonError

def message : JsonError → Text
  | .expectedValue => "Expecting value"
  | .expectedName => "Expecting property name enclosed in double quotes"
  | .expectedColon => "Expecting ':' delimiter"
  | .expectedComma => "Expecting ',' delimiter"
  | .extraData => "Extra data"
  | .unterminated => "Unterminated string starting at"
  | .controlCharacter => "Invalid control character at"
  | .badEscape => "Invalid \\escape"
  | .badUnicodeEscape => "Invalid \\uXXXX escape"
  | .byteOrderMark => "Unexpected UTF-8 BOM (decode using utf-8-sig)"
  | .numeral e => e.message
  | .tooDeep inObject =>
    "maximum recursion depth exceeded while decoding a JSON " ++
      (if inObject then "object" else "array") ++ " from a unicode string"

end JsonError

namespace Json

def maxDepth : Nat := 990

/-- The result of reading a value from the start of a text: the value and what follows it. -/
abbrev Reading (α : Type) := Except JsonError (α × Text)

def isSpace (c : Nat) : Bool :=
  c == 0x20 || c == 0x09 || c == 0x0A || c == 0x0D

def skipSpace (t : Text) : Text := t.dropWhile isSpace

def hex4? (a b c d : Nat) : Option Nat :=
  if [a, b, c, d].all (Numeral.isDigitOf 16) then some (Numeral.value 16 [a, b, c, d]) else none

def shortEscape? : Nat → Option Nat
  | 0x22 => some 0x22
  | 0x5C => some 0x5C
  | 0x2F => some 0x2F
  | 0x62 => some 0x08
  | 0x66 => some 0x0C
  | 0x6E => some 0x0A
  | 0x72 => some 0x0D
  | 0x74 => some 0x09
  | _ => none

/-- Put a code point behind those read so far, newest first. A low surrogate escape right after a high
one makes a single code point. -/
def pushUnit (afterHigh : Bool) (c : Nat) (read : Text) : Text :=
  match read with
  | high :: rest =>
    if afterHigh && 0xDC00 ≤ c && c ≤ 0xDFFF then
      (0x10000 + (high - 0xD800) * 0x400 + (c - 0xDC00)) :: rest
    else c :: high :: rest
  | [] => [c]

/-- Read a text after its opening quote. `read` holds what was read so far, newest first, and
`afterHigh` tells that its newest code point is a high surrogate escape. -/
def readText (read : Text) (afterHigh : Bool) : Text → Reading Text
  | [] => .error .unterminated
  | 0x22 :: rest => .ok (read.reverse, rest)
  | [0x5C] => .error .unterminated
  | 0x5C :: 0x75 :: a :: b :: c :: d :: next :: rest =>
    match hex4? a b c d with
    | none => .error .badUnicodeEscape
    | some u =>
      let joined := afterHigh && 0xDC00 ≤ u && u ≤ 0xDFFF
      readText (pushUnit afterHigh u read) (!joined && 0xD800 ≤ u && u ≤ 0xDBFF) (next :: rest)
  | 0x5C :: e :: rest =>
    if e = 0x75 then .error .badUnicodeEscape
    else
      match shortEscape? e with
      | some c => readText (c :: read) false rest
      | none => .error .badEscape
  | c :: rest => if c < 0x20 then .error .controlCharacter else readText (c :: read) false rest

def isDigit (c : Nat) : Bool := 0x30 ≤ c && c ≤ 0x39

/-- The digits of the fraction after a point, if a digit follows it, and what comes after them. -/
def splitFraction : Text → Text × Text
  | 0x2E :: rest =>
    if (rest.takeWhile isDigit).isEmpty then ([], 0x2E :: rest)
    else (rest.takeWhile isDigit, rest.dropWhile isDigit)
  | t => ([], t)

/-- The exponent at the start of a text, if there is a whole one, and what comes after it. -/
def splitExponent (t : Text) : Option Int × Text :=
  match t with
  | e :: rest =>
    if e = 0x65 ∨ e = 0x45 then
      let (negative, unsigned) := Numeral.splitSign rest
      let digits := unsigned.takeWhile isDigit
      if digits.isEmpty then (none, t)
      else
        let n : Int := Numeral.value 10 digits
        (some (if negative then -n else n), unsigned.dropWhile isDigit)
    else (none, t)
  | [] => (none, [])

/-- Read the magnitude of a number and give it its sign. A zero at the start stands alone. -/
def readMagnitude (negative : Bool) (t : Text) : Reading Json :=
  let all := t.takeWhile isDigit
  let whole := if all.head? = some 0x30 then all.take 1 else all
  if whole.isEmpty then .error .expectedValue
  else
    let (places, rest) := splitFraction (t.drop whole.length)
    let (exponent?, rest) := splitExponent rest
    if places.isEmpty && exponent?.isNone then
      if Numeral.maxDigits < whole.length then .error (.numeral (.tooLong whole.length))
      else
        let n : Int := Numeral.value 10 whole
        .ok (.int (if negative then -n else n), rest)
    else
      let x := Double.ofDecimal (Numeral.value 10 (whole ++ places))
        (exponent?.getD 0 - places.length)
      .ok (.float (if negative then x.neg else x), rest)

def readNumber : Text → Reading Json
  | 0x2D :: rest => readMagnitude true rest
  | t => readMagnitude false t

def words : List (Text × Json) :=
  [("null", .null), ("true", .bool true), ("false", .bool false), ("NaN", .float .nan),
    ("Infinity", .float .infinity), ("-Infinity", .float Double.infinity.neg)]

def readAtom (t : Text) : Reading Json :=
  match words.find? fun w => w.1.isPrefixOf t with
  | some (word, value) => .ok (value, t.drop word.length)
  | none => readNumber t

mutual

/-- Read a value, `depth` levels deep or less. -/
def readValue (fuel depth : Nat) (t : Text) : Reading Json :=
  match fuel with
  | 0 => .error .expectedValue
  | fuel + 1 =>
    match t with
    | 0x22 :: rest => (readText [] false rest).map fun (s, rest) => (.text s, rest)
    | 0x5B :: rest =>
      match depth with
      | 0 => .error (.tooDeep false)
      | depth + 1 =>
        match skipSpace rest with
        | 0x5D :: rest => .ok (.list [], rest)
        | rest => readItems fuel depth [] rest
    | 0x7B :: rest =>
      match depth with
      | 0 => .error (.tooDeep true)
      | depth + 1 =>
        match skipSpace rest with
        | 0x7D :: rest => .ok (.object [], rest)
        | rest => readMembers fuel depth [] rest
    | t => readAtom t

/-- Read the items of a list from the first that is left; `items` holds those before, newest first. -/
def readItems (fuel depth : Nat) (items : List Json) (t : Text) : Reading Json :=
  match fuel with
  | 0 => .error .expectedValue
  | fuel + 1 =>
    match readValue fuel depth t with
    | .error e => .error e
    | .ok (value, rest) =>
      match skipSpace rest with
      | 0x5D :: rest => .ok (.list (value :: items).reverse, rest)
      | 0x2C :: rest => readItems fuel depth (value :: items) (skipSpace rest)
      | _ => .error .expectedComma

/-- Read the fields of an object from the first that is left; `fields` holds those before. -/
def readMembers (fuel depth : Nat) (fields : Fields Json) (t : Text) : Reading Json :=
  match fuel with
  | 0 => .error .expectedValue
  | fuel + 1 =>
    match t with
    | 0x22 :: rest =>
      match readText [] false rest with
      | .error e => .error e
      | .ok (name, rest) =>
        match skipSpace rest with
        | 0x3A :: rest =>
          match readValue fuel depth (skipSpace rest) with
          | .error e => .error e
          | .ok (value, rest) =>
            match skipSpace rest with
            | 0x7D :: rest => .ok (.object (fields.put name value), rest)
            | 0x2C :: rest => readMembers fuel depth (fields.put name value) (skipSpace rest)
            | _ => .error .expectedComma
        | _ => .error .expectedColon
    | _ => .error .expectedName

end

def read (t : Text) : Except JsonError Json :=
  if t.head? = some 0xFEFF then .error .byteOrderMark
  else
    match readValue (2 * t.length + 1) maxDepth (skipSpace t) with
    | .error e => .error e
    | .ok (value, rest) => if (skipSpace rest).isEmpty then .ok value else .error .extraData

end Json

end ElementLint
