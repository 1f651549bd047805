import ElementLint.Text.Utf8
import ElementLint.Tree.Basic

/-!
# Source texts

A concrete tree counts bytes, a report counts characters. `Source.locate` turns the start of a node into
a line and a column, both from one, and `Source.excerpt` is the text of a node. Lines end at the newline
character only. Bytes that are no UTF-8 count as replacement characters.
-/

namespace ElementLint

/-- A place in a source text; lines and columns count from one, columns in characters. -/
structure Position where
  line : Nat
  column : Nat
deriving DecidableEq, Inhabited

namespace Position

def le (p q : Position) : Bool :=
  p.line < q.line || (p.line == q.line && p.column ≤ q.column)

theorem le_iff (p q : Position) :
    p.le q = true ↔ p.line < q.line ∨ (p.line = q.line ∧ p.column ≤ q.column) := by
  simp [le]

theorem le_refl (p : Position) : p.le p = true := by
  simp [le_iff]

theorem le_trans {p q r : Position} (h : p.le q = true) (h' : q.le r = true) : p.le r = true := by
  rw [le_iff] at *
  omega

theorem le_total (p q : Position) : (p.le q || q.le p) = true := by
  rw [Bool.or_eq_true, le_iff, le_iff]
  omega

end Position

/-- A source text as bytes, and its lines. -/
structure Source where
  bytes : List UInt8
  lines : List (List UInt8)

namespace Source

/-- The lines of some bytes; there is always one. -/
def splitLines : List UInt8 → List (List UInt8)
  | [] => [[]]
  | b :: rest =>
    match splitLines rest with
    | [] => [[b]]
    | line :: lines => if b = 0x0A then [] :: line :: lines else (b :: line) :: lines

def ofBytes (bytes : List UInt8) : Source := ⟨bytes, splitLines bytes⟩

/-- The position of a byte on a line: the column counts the characters before it. -/
def position (s : Source) (row column : Nat) : Position :=
  ⟨row + 1, (Utf8.decodeLossy ((s.lines.getD row []).take column)).length + 1⟩

def locate (s : Source) (l : Label) : Position := s.position l.row l.column

def slice (s : Source) (start stop : Nat) : Text :=
  Utf8.decodeLossy ((s.bytes.drop start).take (stop - start))

def excerpt (s : Source) (l : Label) : Text := s.slice l.start l.stop

end Source

end ElementLint
