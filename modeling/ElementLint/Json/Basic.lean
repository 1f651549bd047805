import ElementLint.Number.Decimal

/-!
# JSON values

Options and reports are JSON values. The fields of an object keep the order in which they were first
written, and a field that is written again keeps its place and takes the later value.

`Json.shown` is the wording of a value in a message: a text stands for itself, and inside a list or an
object it is quoted.
-/

namespace ElementLint

/-- A JSON value; whole numbers and fractions are told apart. -/
inductive Json where
  | null
  | bool (b : Bool)
  | int (n : Int)
  | float (x : Double)
  | text (t : Text)
  | list (items : List Json)
  | object (fields : List (Text × Json))
deriving Inhabited

/-- Names with values, in the order of their first mention. -/
abbrev Fields (α : Type) := List (Text × α)

namespace Fields

def get? {α : Type} (fields : Fields α) (name : Text) : Option α :=
  (fields.find? fun f => f.1 == name).map (·.2)

/-- Give a name a value: in its place if it is there, and at the end otherwise. -/
def put {α : Type} (name : Text) (value : α) : Fields α → Fields α
  | [] => [(name, value)]
  | f :: rest => if f.1 = name then (name, value) :: rest else f :: put name value rest

def names {α : Type} (fields : Fields α) : List Text :=
  fields.map (·.1)

@[simp] theorem get?_nil {α : Type} (name : Text) : get? ([] : Fields α) name = none := rfl

theorem get?_cons {α : Type} (f : Text × α) (rest : Fields α) (name : Text) :
    get? (f :: rest) name = if f.1 = name then some f.2 else get? rest name := by
  by_cases h : f.1 = name <;> simp [get?, h]

/-- A name that was given a value has it, and the other names keep theirs. -/
theorem get?_put {α : Type} (fields : Fields α) (name other : Text) (value : α) :
    get? (put name value fields) other =
      if name = other then some value else get? fields other := by
  induction fields with
  | nil => simp [put, get?_cons]
  | cons f rest ih =>
    by_cases h : f.1 = name
    · by_cases h' : name = other <;> simp [put, h, h', get?_cons]
    · by_cases h' : name = other
      · subst h'
        simp [put, h, get?_cons, ih]
      · simp [put, h, h', get?_cons, ih]

/-- A new name goes to the end, and an old one keeps its place. -/
theorem names_put {α : Type} (fields : Fields α) (name : Text) (value : α) :
    names (put name value fields) =
      if name ∈ names fields then names fields else names fields ++ [name] := by
  induction fields with
  | nil => simp [put, names]
  | cons f rest ih =>
    by_cases h : f.1 = name
    · simp [put, names, h]
    · have h' : ¬ name = f.1 := fun e => h e.symm
      simp only [names] at ih
      by_cases hm : name ∈ rest.map (·.1)
      · simp_all [put, names]
      · simp_all [put, names]

end Fields

namespace Json

def get? (j : Json) (name : Text) : Option Json :=
  match j with
  | .object fields => Fields.get? fields name
  | _ => none

def typeName : Json → Text
  | .null => "NoneType"
  | .bool _ => "bool"
  | .int _ => "int"
  | .float _ => "float"
  | .text _ => "str"
  | .list _ => "list"
  | .object _ => "dict"

/-- Whether a value counts as true: all but the empty and zero ones do. -/
def truthy : Json → Bool
  | .null => false
  | .bool b => b
  | .int n => n != 0
  | .float x => x.bits != 0 && x.bits != 0x8000000000000000
  | .text t => !t.isEmpty
  | .list items => !items.isEmpty
  | .object fields => !fields.isEmpty

/-- Whether a value is a list or an object, which can be no member of a set and no name. -/
def isContainer : Json → Bool
  | .list _ | .object _ => true
  | _ => false

/-- The values that a value runs through: the items of a list, the characters of a text, the names of
an object. -/
def elements? : Json → Option (List Json)
  | .list items => some items
  | .text t => some (t.map fun c => .text [c])
  | .object fields => some (fields.map fun f => .text f.1)
  | _ => none

/-- A value read as a whole number: the truth values count as one and zero. -/
def int? : Json → Option Int
  | .int n => some n
  | .bool b => some (if b then 1 else 0)
  | _ => none

mutual

def quoted : Json → Text
  | .null => "None"
  | .bool b => if b then "True" else "False"
  | .int n => Text.ofInt n
  | .float x => x.shown
  | .text t => t.quoted
  | .list items => "[" ++ quotedItems items ++ "]"
  | .object fields => "\x7b" ++ quotedFields fields ++ "\x7d"

def quotedItems : List Json → Text
  | [] => []
  | [j] => quoted j
  | j :: rest => quoted j ++ ", " ++ quotedItems rest

def quotedFields : List (Text × Json) → Text
  | [] => []
  | [(name, j)] => name.quoted ++ ": " ++ quoted j
  | (name, j) :: rest => name.quoted ++ ": " ++ quoted j ++ ", " ++ quotedFields rest

end

/-- A value in a message; a text stands for itself. -/
def shown : Json → Text
  | .text t => t
  | j => j.quoted

mutual

def isEqual : Json → Json → Bool
  | .null, .null => true
  | .bool a, .bool b => a == b
  | .int a, .int b => a == b
  | .float a, .float b => a == b
  | .text a, .text b => a == b
  | .list a, .list b => isEqualList a b
  | .object a, .object b => isEqualFields a b
  | _, _ => false

def isEqualList : List Json → List Json → Bool
  | [], [] => true
  | a :: as, b :: bs => isEqual a b && isEqualList as bs
  | _, _ => false

def isEqualFields : List (Text × Json) → List (Text × Json) → Bool
  | [], [] => true
  | (n, a) :: as, (m, b) :: bs => n == m && isEqual a b && isEqualFields as bs
  | _, _ => false

end

mutual

theorem isEqual_iff (a b : Json) : isEqual a b = true ↔ a = b := by
  cases a <;> cases b <;>
    simp [isEqual, isEqualList_iff, isEqualFields_iff]

theorem isEqualList_iff (a b : List Json) : isEqualList a b = true ↔ a = b := by
  match a, b with
  | [], [] | [], _ :: _ | _ :: _, [] => simp [isEqualList]
  | a :: as, b :: bs => simp [isEqualList, isEqual_iff a b, isEqualList_iff as bs]

theorem isEqualFields_iff (a b : List (Text × Json)) : isEqualFields a b = true ↔ a = b := by
  match a, b with
  | [], [] | [], _ :: _ | _ :: _, [] => simp [isEqualFields]
  | (n, a) :: as, (m, b) :: bs =>
    simp [isEqualFields, isEqual_iff a b, isEqualFields_iff as bs]

end

instance : DecidableEq Json := fun a b => decidable_of_iff _ (isEqual_iff a b)

end Json

end ElementLint
