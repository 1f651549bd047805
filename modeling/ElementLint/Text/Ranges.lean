import ElementLint.Text.Basic

/-!
# Ranges of code points

A character property is a table of ranges in ascending order; `Ranges.find?` looks a code point up.
-/

namespace ElementLint

/-- Ranges of code points, each given by its first and its last, in ascending order. -/
abbrev Ranges := Array (Nat × Nat)

namespace Ranges

/-- The range that holds a code point, searched by halving: `lo` and `hi` bound the places left, and
`fuel` the number of halvings. -/
def search (table : Ranges) (c : Nat) : (fuel lo hi : Nat) → Option (Nat × Nat)
  | 0, _, _ => none
  | fuel + 1, lo, hi =>
    if hi ≤ lo then none
    else
      let mid := (lo + hi) / 2
      match table[mid]? with
      | none => none
      | some (first, last) =>
        if c < first then search table c fuel lo mid
        else if last < c then search table c fuel (mid + 1) hi
        else some (first, last)

def find? (table : Ranges) (c : Nat) : Option (Nat × Nat) :=
  search table c (table.size + 1) 0 table.size

def has (table : Ranges) (c : Nat) : Bool :=
  (table.find? c).isSome

end Ranges

end ElementLint
