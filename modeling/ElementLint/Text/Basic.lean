/-!
# Texts

A text is a list of code points. Unlike `String` it may hold lone surrogates, which a string literal
such as `'\uD800'` denotes, and it is cut, compared and counted code point by code point.

String literals are read as texts by a coercion, so messages are put together with `++`.
-/

namespace ElementLint

/-- A text: a sequence of code points, each a number below `0x110000`. -/
abbrev Text := List Nat

namespace Text

def ofString (s : String) : Text :=
  s.toList.map Char.toNat

instance : Coe String Text := ⟨ofString⟩

/-- The string with these code points; a surrogate becomes the replacement character. -/
def toDisplay (t : Text) : String :=
  String.ofList (t.map fun c => if c.isValidChar then Char.ofNat c else Char.ofNat 0xFFFD)

def ofNat (n : Nat) : Text :=
  (Nat.toDigits 10 n).map Char.toNat

/-- The decimal digits of an integer, after a minus sign when it is negative. -/
def ofInt : Int → Text
  | .ofNat n => ofNat n
  | .negSucc n => "-" ++ ofNat (n + 1)

/-- White space: what `strip` removes from both ends. -/
def isBlank (c : Nat) : Bool :=
  (9 ≤ c && c ≤ 13) || (28 ≤ c && c ≤ 32) || c == 0x85 || c == 0xA0 || c == 0x1680 ||
    (0x2000 ≤ c && c ≤ 0x200A) || c == 0x2028 || c == 0x2029 || c == 0x202F || c == 0x205F ||
    c == 0x3000

def isLineBreak (c : Nat) : Bool :=
  (10 ≤ c && c ≤ 13) || (28 ≤ c && c ≤ 30) || c == 0x85 || c == 0x2028 || c == 0x2029

/-- Every line break is white space, so a stripped text does not start with one. -/
theorem isBlank_of_isLineBreak {c : Nat} (h : isLineBreak c = true) : isBlank c = true := by
  simp only [isLineBreak, isBlank, Bool.or_eq_true, Bool.and_eq_true, decide_eq_true_eq,
    beq_iff_eq] at h ⊢
  omega

def stripStart (t : Text) : Text :=
  t.dropWhile isBlank

def stripEnd (t : Text) : Text :=
  (t.reverse.dropWhile isBlank).reverse

def strip (t : Text) : Text :=
  stripEnd (stripStart t)

def firstLine (t : Text) : Text :=
  t.takeWhile fun c => !isLineBreak c

/-- The pieces of a text between the occurrences of a separator; there is always one. -/
def splitOn (sep : Nat) : Text → List Text
  | [] => [[]]
  | c :: t =>
    match splitOn sep t with
    | [] => [[c]]
    | piece :: rest => if c = sep then [] :: piece :: rest else (c :: piece) :: rest

/-- The part before the first occurrence of a separator and the part after it, if it occurs. -/
def cutAt? (sep : Nat) : Text → Option (Text × Text)
  | [] => none
  | c :: t => if c = sep then some ([], t) else (cutAt? sep t).map fun (a, b) => (c :: a, b)

def joinWith (sep : Text) : List Text → Text
  | [] => []
  | [t] => t
  | t :: rest => t ++ sep ++ joinWith sep rest

def unlines (lines : List Text) : Text :=
  lines.flatMap fun t => t ++ "\n"

def contains (t part : Text) : Bool :=
  (tails t).any part.isPrefixOf
where
  tails : Text → List Text
    | [] => [[]]
    | c :: t => (c :: t) :: tails t

/-- Whether a text does not come after another one: the first code points that differ decide, and a
text comes after its own beginnings. -/
def le : Text → Text → Bool
  | [], _ => true
  | _ :: _, [] => false
  | a :: t, b :: u => a < b || (a == b && le t u)

theorem le_refl (t : Text) : le t t = true := by
  induction t with
  | nil => rfl
  | cons a t ih => simp [le, ih]

/-- Texts in ascending order of their code points, each once. -/
def sortedSet (ts : List Text) : List Text :=
  (ts.mergeSort le).foldr
    (fun t rest => if rest.head? = some t then rest else t :: rest) []

end Text

end ElementLint
