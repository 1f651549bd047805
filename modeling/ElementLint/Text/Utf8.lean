import ElementLint.Text.Quoted

/-!
# UTF-8

`encode` writes a text as bytes. `decode` reads any bytes one at a time: it gives a code point for each
well-formed character and `none` for each maximal run of bytes that starts a character without
finishing it, or for a byte that starts none. Both readers of the program come from it: `decodeLossy`
puts the replacement character in place of each `none`, and `decode?` refuses bytes that have one.
-/

namespace ElementLint

namespace Utf8

def encodePoint (c : Nat) : List UInt8 :=
  if c < 0x80 then [c.toUInt8]
  else if c < 0x800 then [(0xC0 + c / 64).toUInt8, (0x80 + c % 64).toUInt8]
  else if c < 0x10000 then
    [(0xE0 + c / 4096).toUInt8, (0x80 + c / 64 % 64).toUInt8, (0x80 + c % 64).toUInt8]
  else
    [(0xF0 + c / 262144).toUInt8, (0x80 + c / 4096 % 64).toUInt8, (0x80 + c / 64 % 64).toUInt8,
      (0x80 + c % 64).toUInt8]

def encode (t : Text) : List UInt8 :=
  t.flatMap encodePoint

/-- Surrogates are code points and no characters. -/
def isSurrogate (c : Nat) : Bool := 0xD800 ≤ c && c ≤ 0xDFFF

/-- The words in which a text with some bad surrogates is refused. They tell of the first one, and of the
surrogates that follow it directly. -/
def refusal? (isBad : Nat → Bool) (t : Text) : Option Text :=
  match t.dropWhile (!isBad ·) with
  | [] => none
  | c :: rest =>
    let place := (t.takeWhile (!isBad ·)).length
    let more := (rest.takeWhile isSurrogate).length
    some <|
      (if more = 0 then
        "'utf-8' codec can't encode character '\\u" ++ Text.hex 4 c ++ "' in position " ++ Text.ofNat place
      else
        "'utf-8' codec can't encode characters in position " ++ Text.ofNat place ++ "-" ++
          Text.ofNat (place + more)) ++ ": surrogates not allowed"

@[simp] theorem encode_nil : encode [] = [] := rfl

theorem encode_cons (c : Nat) (t : Text) : encode (c :: t) = encodePoint c ++ encode t := rfl

theorem encode_append (s t : Text) : encode (s ++ t) = encode s ++ encode t := by
  simp [encode]

/-- What is known of a character of which some bytes have been read: the bits so far, the number of
bytes still owed, at least one, and the bounds within which the next byte has to lie. -/
structure Pending where
  bits : Nat
  owed : Nat
  low : Nat
  high : Nat

/-- What a byte between two characters means. -/
inductive Start where
  /-- A character of one byte. -/
  | single (c : Nat)
  /-- The first byte of a longer character. -/
  | lead (p : Pending)
  /-- No character starts with this byte. -/
  | stray

/-- The bounds of the byte after the first exclude overlong forms, surrogates and numbers past the last
code point. -/
def start (b : Nat) : Start :=
  if b < 0x80 then .single b
  else if b < 0xC2 then .stray
  else if b < 0xE0 then .lead ⟨b - 0xC0, 1, 0x80, 0xBF⟩
  else if b = 0xE0 then .lead ⟨0, 2, 0xA0, 0xBF⟩
  else if b = 0xED then .lead ⟨0xD, 2, 0x80, 0x9F⟩
  else if b < 0xF0 then .lead ⟨b - 0xE0, 2, 0x80, 0xBF⟩
  else if b = 0xF0 then .lead ⟨0, 3, 0x90, 0xBF⟩
  else if b < 0xF4 then .lead ⟨b - 0xF0, 3, 0x80, 0xBF⟩
  else if b = 0xF4 then .lead ⟨4, 3, 0x80, 0x8F⟩
  else .stray

mutual

/-- Read bytes that stand between two characters. -/
def decode : List UInt8 → List (Option Nat)
  | [] => []
  | b :: rest =>
    match start b.toNat with
    | .single c => some c :: decode rest
    | .stray => none :: decode rest
    | .lead p => decodeAfter p rest

/-- Read bytes inside a character. A byte out of bounds ends the unfinished character and is read
again as the start of the next one. -/
def decodeAfter (p : Pending) : List UInt8 → List (Option Nat)
  | [] => [none]
  | b :: rest =>
    let bits := p.bits * 64 + (b.toNat - 0x80)
    if p.low ≤ b.toNat ∧ b.toNat ≤ p.high then
      if p.owed ≤ 1 then some bits :: decode rest
      else decodeAfter ⟨bits, p.owed - 1, 0x80, 0xBF⟩ rest
    else
      match start b.toNat with
      | .single c => none :: some c :: decode rest
      | .stray => none :: none :: decode rest
      | .lead q => none :: decodeAfter q rest

end

def replacement : Nat := 0xFFFD

/-- Read any bytes, with the replacement character for each piece that is no character. -/
def decodeLossy (bytes : List UInt8) : Text :=
  (decode bytes).map (·.getD replacement)

/-- Read bytes that are UTF-8 throughout. -/
def decode? (bytes : List UInt8) : Option Text :=
  (decode bytes).mapM id

end Utf8

end ElementLint
