import ElementLint.Json.Basic

/-!
# The order of JSON values

Numbers are compared by their size, whether they are whole or not, and the truth values count as one
and zero; texts are compared by their code points, lists item by item. No other two values stand in an
order, and `Json.less` says which two it could not compare.

`Json.alike` tells whether two values are equal in this sense. It is coarser than equality: `1`, `1.0`
and `true` are alike, and so are objects that differ in the order of their fields.
-/

namespace ElementLint

/-- Where a number stands on the line of all numbers: the infinities are beyond its two ends. -/
structure Place where
  /-- Minus one and one for the infinities, and zero for all other numbers. -/
  wing : Int
  /-- How many times the number holds the least double. -/
  count : Int
deriving DecidableEq

namespace Place

def before (a b : Place) : Bool :=
  a.wing < b.wing || (a.wing == b.wing && a.count < b.count)

/-- How many of the least double, which is `2 ^ -1074`, make one. -/
def unit : Nat := Nat.pow 2 1074

def ofInt (n : Int) : Place := ⟨0, n * unit⟩

def ofDouble? (x : Double) : Option Place :=
  let signed (n : Int) : Int := if x.isNegative then -n else n
  if x.isNaN then none
  else if x.isFinite then some ⟨0, signed (x.mantissa * Nat.pow 2 (x.scale + 1074).toNat : Nat)⟩
  else some ⟨signed 1, 0⟩

end Place

namespace Json

def isNumber : Json → Bool
  | .bool _ | .int _ | .float _ => true
  | _ => false

def place? : Json → Option Place
  | .bool b => some (.ofInt (if b then 1 else 0))
  | .int n => some (.ofInt n)
  | .float x => Place.ofDouble? x
  | _ => none

/-- Whether the places of two numbers are there and in a relation. -/
def comparePlaces (rel : Place → Place → Bool) (a b : Json) : Bool :=
  match a.place?, b.place? with
  | some p, some q => rel p q
  | _, _ => false

mutual

/-- Whether two values are equal up to the spelling of numbers and the order of fields. -/
def alike : Json → Json → Bool
  | .null, .null => true
  | .text a, .text b => a == b
  | .list a, .list b => alikeLists a b
  | .object a, .object b => a.length == b.length && alikeFields a b
  | a, b => comparePlaces (· == ·) a b

/-- Whether two lists are as long as each other and alike item by item. -/
def alikeLists : List Json → List Json → Bool
  | [], [] => true
  | a :: as, b :: bs => alike a b && alikeLists as bs
  | _, _ => false

def alikeFields : List (Text × Json) → Fields Json → Bool
  | [], _ => true
  | (name, a) :: rest, fields =>
    (match fields.get? name with
      | some b => alike a b
      | none => false) && alikeFields rest fields

end

/-- Two values that stand in no order. -/
structure Unordered where
  left : Json
  right : Json
deriving DecidableEq

/-- The wording of the fault, with the sign of the comparison. -/
def Unordered.message (sign : Text) (u : Unordered) : Text :=
  "'" ++ sign ++ "' not supported between instances of '" ++ u.left.typeName ++ "' and '" ++
    u.right.typeName ++ "'"

mutual

def less : Json → Json → Except Unordered Bool
  | .text a, .text b => .ok (!b.le a)
  | .list a, .list b => lessLists a b
  | a, b =>
    if a.isNumber && b.isNumber then .ok (comparePlaces Place.before a b) else .error ⟨a, b⟩

/-- Whether a list comes before another one: the first items that are not alike decide, and a list
comes after its own beginnings. -/
def lessLists : List Json → List Json → Except Unordered Bool
  | [], bs => .ok (!bs.isEmpty)
  | _ :: _, [] => .ok false
  | a :: as, b :: bs => if alike a b then lessLists as bs else less a b

end

@[simp] theorem alike_text (a b : Text) : alike (.text a) (.text b) = (a == b) := by
  simp [alike]

@[simp] theorem less_text (a b : Text) : less (.text a) (.text b) = .ok (!b.le a) := by
  simp [less]

/-- The lesser of two values, the first if neither comes before the other. -/
def lesser (a b : Json) : Except Unordered Json :=
  (less b a).map fun isLess => if isLess then b else a

/-- The values without those that are alike to an earlier one. -/
def distinct (values : List Json) : List Json :=
  values.foldl (fun kept j => if kept.any (alike · j) then kept else kept ++ [j]) []

end Json

end ElementLint
