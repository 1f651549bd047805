import ElementLint.Json.Basic

/-!
# Writing JSON

A value is written on one line in ASCII: a comma or a colon is followed by a space, and a character
beyond ASCII is escaped by its UTF-16 units. Each writer puts its output in front of the text that
follows it.
-/

namespace ElementLint

namespace Json

def writePoint (c : Nat) : Text :=
  if c = 0x22 then "\\\""
  else if c = 0x5C then "\\\\"
  else if c = 0x0A then "\\n"
  else if c = 0x0D then "\\r"
  else if c = 0x09 then "\\t"
  else if c = 0x0C then "\\f"
  else if c = 0x08 then "\\b"
  else if 0x20 ≤ c ∧ c < 0x7F then [c]
  else if c < 0x10000 then "\\u" ++ Text.hex 4 c
  else
    "\\u" ++ Text.hex 4 (0xD800 + (c - 0x10000) / 0x400) ++
      "\\u" ++ Text.hex 4 (0xDC00 + (c - 0x10000) % 0x400)

def writeText (t rest : Text) : Text :=
  0x22 :: t.foldr (fun c rest => writePoint c ++ rest) (0x22 :: rest)

/-- A fraction; the values that are no finite numbers are written as words. -/
def writeFloat (x : Double) : Text :=
  if x.isNaN then "NaN"
  else if x.isFinite then x.shown
  else if x.isNegative then "-Infinity"
  else "Infinity"

/-- A value as the name of a field: a text stands for itself, and all else is written. -/
def asName : Json → Text
  | .null => "null"
  | .bool b => if b then "true" else "false"
  | .float x => writeFloat x
  | j => j.shown

mutual

def writeOnto (rest : Text) : Json → Text
  | .null => "null" ++ rest
  | .bool b => (if b then "true" else "false") ++ rest
  | .int n => Text.ofInt n ++ rest
  | .float x => writeFloat x ++ rest
  | .text t => writeText t rest
  | .list items => 0x5B :: writeItems (0x5D :: rest) items
  | .object fields => 0x7B :: writeFields (0x7D :: rest) fields

def writeItems (rest : Text) : List Json → Text
  | [] => rest
  | [j] => writeOnto rest j
  | j :: more => writeOnto (0x2C :: 0x20 :: writeItems rest more) j

def writeFields (rest : Text) : List (Text × Json) → Text
  | [] => rest
  | [(name, j)] => writeText name (0x3A :: 0x20 :: writeOnto rest j)
  | (name, j) :: more =>
    writeText name (0x3A :: 0x20 :: writeOnto (0x2C :: 0x20 :: writeFields rest more) j)

end

def write (j : Json) : Text := writeOnto [] j

end Json

end ElementLint
