/-!
# Sorting by insertion

`Insertion.sort` sorts by a comparison that may fail and stops at the first failure. It takes the run
at the start of a list that is in order already, or in the opposite order throughout, and inserts the
items after it one by one, searching the place of each by halving. Items of which neither comes before
the other stay in their order.
-/

namespace ElementLint

namespace Insertion

variable {α ε : Type} (less : α → α → Except ε Bool)

/-- The longest run at the start of a list, given by its items so far, newest first, and the rest. In a
falling run every item comes before the one to its left, in any other none does. -/
def runFrom (falling : Bool) (last : α) (run : List α) : List α → Except ε (List α × List α)
  | [] => .ok (last :: run, [])
  | x :: rest => do
    if (← less x last) == falling then runFrom falling x (last :: run) rest
    else return (last :: run, x :: rest)

/-- The place of an item among sorted ones: behind all that it does not come before. The places from
`lo` to `hi` are left, and `fuel` bounds the number of halvings. -/
def place (sorted : Array α) (x : α) : (fuel lo hi : Nat) → Except ε Nat
  | 0, lo, _ => .ok lo
  | fuel + 1, lo, hi =>
    if hi ≤ lo then .ok lo
    else
      match sorted[lo + (hi - lo) / 2]? with
      | none => .ok lo
      | some y => do
        if ← less x y then place sorted x fuel lo (lo + (hi - lo) / 2)
        else place sorted x fuel (lo + (hi - lo) / 2 + 1) hi

def insert (sorted : Array α) (x : α) : Except ε (Array α) := do
  let i ← place less sorted x (sorted.size + 1) 0 sorted.size
  return sorted.insertIdxIfInBounds i x

def sort : List α → Except ε (List α)
  | x :: y :: rest => do
    let falling ← less y x
    let (run, rest) ← runFrom less falling y [x] rest
    let sorted ← rest.foldlM (insert less) (if falling then run else run.reverse).toArray
    return sorted.toList
  | items => .ok items

end Insertion

end ElementLint
