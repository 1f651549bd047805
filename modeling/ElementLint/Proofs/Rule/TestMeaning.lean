import ElementLint.Proofs.Node.Address
import ElementLint.Rule.GuardSuperCall

/-!
# What tests mean

The meaning of the expressions that the rule on guarded super calls looks at: members that a class
inherits, `undefined`, `null` and strings, the negation `!`, `typeof`, the four comparisons for equality, and
the conjunction `&&`. An inherited member may have any value, and so may an expression of any other form.

`Evaluates` relates an expression to the values that it may have. No expression is without a value
(`exists_evaluates`), and which one it has is settled by the members and by the expressions of other forms in it.
-/

namespace ElementLint

/-- A string of the language: its units of 16 bits. -/
abbrev CodeUnits := List Nat

namespace Text

/-- The units of a text; a code point beyond the first plane takes two. -/
def codeUnits (t : Text) : CodeUnits :=
  t.flatMap fun c =>
    if c < 0x10000 then [c] else [0xD800 + (c - 0x10000) / 0x400, 0xDC00 + (c - 0x10000) % 0x400]

end Text

namespace Double

def isZero (x : Double) : Bool := x.isFinite && x.mantissa == 0

/-- Whether two numbers are equal: one that is no number equals none, and both zeros are equal. -/
def equals (x y : Double) : Bool :=
  !x.isNaN && !y.isNaN && (x == y || (x.isZero && y.isZero))

def isInteger (x : Double) (n : Int) : Bool :=
  x.isFinite && n * (x.ratio.2 : Int) == if x.isNegative then -(x.ratio.1 : Int) else x.ratio.1

end Double

namespace Js

/-- A value that is no object. -/
inductive Primitive where
  | undefined
  | null
  | bool (b : Bool)
  | number (x : Double)
  | bigInt (n : Int)
  | string (s : CodeUnits)
  | symbol (id : Nat)
deriving DecidableEq

/-- What a test can tell of an object: whether it can be called, and whether it passes for `undefined` as
`document.all` does. -/
inductive ObjectKind where
  | ordinary
  | callable
  | undefinedLike
deriving DecidableEq

/-- A value. -/
inductive Value where
  | primitive (p : Primitive)
  | object (id : Nat) (kind : ObjectKind)
deriving DecidableEq

/-- What comparisons of values of different types need: strings read as numbers and as whole numbers, and
the primitive values of objects. -/
structure Conversions where
  numberOf : CodeUnits → Double
  bigIntOf? : CodeUnits → Option Int
  primitiveOf : Nat → Primitive

namespace Primitive

def truthy : Primitive → Bool
  | undefined | null => false
  | bool b => b
  | number x => !x.isZero && !x.isNaN
  | bigInt n => n != 0
  | string s => !s.isEmpty
  | symbol _ => true

/-- What `typeof` gives. -/
def typeName : Primitive → Text
  | undefined => "undefined"
  | null => "object"
  | bool _ => "boolean"
  | number _ => "number"
  | bigInt _ => "bigint"
  | string _ => "string"
  | symbol _ => "symbol"

/-- The comparison `===`. -/
def strictlyEquals : Primitive → Primitive → Bool
  | number x, number y => x.equals y
  | p, q => p == q

/-- A truth value as a number. -/
def unbool : Primitive → Primitive
  | bool b => number (if b then ⟨0x3FF0000000000000⟩ else .zero)
  | p => p

/-- The comparison `==` of values that are no truth values. -/
def equalsAsNumbers (c : Conversions) : Primitive → Primitive → Bool
  | undefined, null | null, undefined => true
  | number x, string s | string s, number x => x.equals (c.numberOf s)
  | bigInt n, string s | string s, bigInt n => c.bigIntOf? s == some n
  | bigInt n, number x | number x, bigInt n => x.isInteger n
  | p, q => p.strictlyEquals q

/-- The comparison `==`. -/
def looselyEquals (c : Conversions) (p q : Primitive) : Bool :=
  equalsAsNumbers c p.unbool q.unbool

end Primitive

namespace Value

def truthy : Value → Bool
  | primitive p => p.truthy
  | object _ kind => kind != .undefinedLike

/-- What `typeof` gives. -/
def typeName : Value → Text
  | primitive p => p.typeName
  | object _ .ordinary => "object"
  | object _ .callable => "function"
  | object _ .undefinedLike => "undefined"

/-- The comparison `===`. -/
def strictlyEquals : Value → Value → Bool
  | primitive p, primitive q => p.strictlyEquals q
  | v, w => v == w

/-- Whether an object equals a value that is none. -/
def objectEquals (c : Conversions) (id : Nat) (kind : ObjectKind) : Primitive → Bool
  | .undefined | .null => kind == .undefinedLike
  | p => (c.primitiveOf id).looselyEquals c p

/-- The comparison `==`. -/
def looselyEquals (c : Conversions) : Value → Value → Bool
  | primitive p, primitive q => p.looselyEquals c q
  | object id kind, primitive p | primitive p, object id kind => objectEquals c id kind p
  | v, w => v == w

end Value

/-- What an operator makes of one value. -/
def applyUnary? (operator : String) (v : Value) : Option Value :=
  match operator with
  | "!" => some (.primitive (.bool !v.truthy))
  | "typeof" => some (.primitive (.string v.typeName.codeUnits))
  | _ => none

/-- Whether a comparison of two values holds. -/
def compare? (c : Conversions) (operator : String) (v w : Value) : Option Bool :=
  match operator with
  | "===" => some (v.strictlyEquals w)
  | "!==" => some !(v.strictlyEquals w)
  | "==" => some (v.looselyEquals c w)
  | "!=" => some !(v.looselyEquals c w)
  | _ => none

/-- The node is the inherited member with a name, which may stand in brackets as a string. -/
inductive SuperMember : Node → CodeUnits → Prop
  | named {pos superPos namePos : Position} {name : Text} {optional : Bool} :
      SuperMember (.member pos (some (.super superPos)) (some (.identifier namePos name)) false optional)
        name.codeUnits
  | quoted {pos superPos namePos : Position} {name raw : Text} {optional : Bool} :
      SuperMember (.member pos (some (.super superPos)) (some (.literal namePos (.text name) raw)) true
        optional) name.codeUnits

/-- Whether the meaning of an expression is given by its form. -/
def isInterpreted : Option Node → Bool
  | some (.identifier _ name) => name == Text.ofString "undefined"
  | some (.literal _ (.text _) _) | some (.literal _ .null _) | some (.logical _ .and _ _) => true
  | some (.unary _ operator _) => operator == "!" || operator == "typeof"
  | some (.binary _ operator _ _) =>
    operator == "===" || operator == "!==" || operator == "==" || operator == "!="
  | n => GuardSuperCall.isSuperMember n

/-- The values of an expression, with the values of the inherited members by their names. -/
inductive Evaluates (c : Conversions) (inherited : CodeUnits → Value) : Option Node → Value → Prop
  | member {n : Node} {name : CodeUnits} (h : SuperMember n name) :
      Evaluates c inherited (some n) (inherited name)
  | undefined {pos : Position} :
      Evaluates c inherited (some (.identifier pos "undefined")) (.primitive .undefined)
  | null {pos : Position} {raw : Text} :
      Evaluates c inherited (some (.literal pos .null raw)) (.primitive .null)
  | string {pos : Position} {t raw : Text} :
      Evaluates c inherited (some (.literal pos (.text t) raw)) (.primitive (.string t.codeUnits))
  | unary {pos : Position} {operator : String} {a : Option Node} {v w : Value}
      (ha : Evaluates c inherited a v) (h : applyUnary? operator v = some w) :
      Evaluates c inherited (some (.unary pos operator a)) w
  | comparison {pos : Position} {operator : String} {l r : Option Node} {v w : Value} {b : Bool}
      (hl : Evaluates c inherited l v) (hr : Evaluates c inherited r w)
      (h : compare? c operator v w = some b) :
      Evaluates c inherited (some (.binary pos operator l r)) (.primitive (.bool b))
  | andLeft {pos : Position} {l r : Option Node} {v : Value} (hl : Evaluates c inherited l v)
      (h : v.truthy = false) : Evaluates c inherited (some (.logical pos .and l r)) v
  | andRight {pos : Position} {l r : Option Node} {v w : Value} (hl : Evaluates c inherited l v)
      (h : v.truthy = true) (hr : Evaluates c inherited r w) :
      Evaluates c inherited (some (.logical pos .and l r)) w
  | other {n : Option Node} (h : isInterpreted n = false) (v : Value) : Evaluates c inherited n v

theorem SuperMember.unique {n : Node} {name name' : CodeUnits} (h : SuperMember n name)
    (h' : SuperMember n name') : name = name' := by
  cases h with
  | named => cases h'; rfl
  | quoted => cases h'; rfl

theorem isSuperMember_iff {n : Option Node} :
    GuardSuperCall.isSuperMember n = true ↔ ∃ m name, n = some m ∧ SuperMember m name := by
  constructor
  · intro h
    unfold GuardSuperCall.isSuperMember at h
    split at h
    · split at h
      · subst h
        exact ⟨_, _, rfl, .quoted⟩
      · rw [Bool.not_eq_true'] at h
        subst h
        exact ⟨_, _, rfl, .named⟩
      · cases h
    · cases h
  · rintro ⟨m, name, rfl, h⟩
    cases h <;> rfl

/-! ## The values of expressions of each form -/

section

variable {c : Conversions} {inherited : CodeUnits → Value} {pos : Position} {v : Value}

theorem evaluates_member {n : Node} {name : CodeUnits} (hn : SuperMember n name)
    (h : Evaluates c inherited (some n) v) : v = inherited name := by
  have hform : isInterpreted (some n) = true := by cases hn <;> rfl
  cases h with
  | member h => rw [hn.unique h]
  | other h => rw [hform] at h; cases h
  | _ => cases hn

theorem evaluates_undefined (h : Evaluates c inherited (some (.identifier pos "undefined")) v) :
    v = .primitive .undefined := by
  cases h with
  | member h => cases h
  | undefined => rfl
  | other h => cases h

theorem evaluates_null {raw : Text} (h : Evaluates c inherited (some (.literal pos .null raw)) v) :
    v = .primitive .null := by
  cases h with
  | member h => cases h
  | null => rfl
  | other h => cases h

theorem evaluates_string {t raw : Text}
    (h : Evaluates c inherited (some (.literal pos (.text t) raw)) v) :
    v = .primitive (.string t.codeUnits) := by
  cases h with
  | member h => cases h
  | string => rfl
  | other h => cases h

theorem evaluates_unary {operator : String} {a : Option Node}
    (hform : isInterpreted (some (.unary pos operator a)) = true)
    (h : Evaluates c inherited (some (.unary pos operator a)) v) :
    ∃ u, Evaluates c inherited a u ∧ applyUnary? operator u = some v := by
  cases h with
  | member h => cases h
  | unary ha h => exact ⟨_, ha, h⟩
  | other h => rw [hform] at h; cases h

theorem evaluates_comparison {operator : String} {l r : Option Node}
    (hform : isInterpreted (some (.binary pos operator l r)) = true)
    (h : Evaluates c inherited (some (.binary pos operator l r)) v) :
    ∃ u w b, Evaluates c inherited l u ∧ Evaluates c inherited r w ∧
      compare? c operator u w = some b ∧ v = .primitive (.bool b) := by
  cases h with
  | member h => cases h
  | comparison hl hr h => exact ⟨_, _, _, hl, hr, h, rfl⟩
  | other h => rw [hform] at h; cases h

theorem evaluates_and {l r : Option Node} (h : Evaluates c inherited (some (.logical pos .and l r)) v) :
    (Evaluates c inherited l v ∧ v.truthy = false) ∨
      ∃ u, Evaluates c inherited l u ∧ u.truthy = true ∧ Evaluates c inherited r v := by
  cases h with
  | member h => cases h
  | andLeft hl h => exact .inl ⟨hl, h⟩
  | andRight hl h hr => exact .inr ⟨_, hl, h, hr⟩
  | other h => cases h

end

/-! ## Every expression has a value -/

theorem exists_compare?_eq_some (c : Conversions) {operator : String} {l r : Option Node} {pos : Position}
    (h : isInterpreted (some (.binary pos operator l r)) = true) (v w : Value) :
    ∃ b, compare? c operator v w = some b := by
  simp only [isInterpreted, Bool.or_eq_true, beq_iff_eq] at h
  rcases h with ((rfl | rfl) | rfl) | rfl <;> exact ⟨_, rfl⟩

/-- An expression whose parts have values has one. -/
theorem exists_evaluates_of_slots {c : Conversions} {inherited : CodeUnits → Value} {n : Node}
    (h : ∀ a ∈ n.slots, ∃ v, Evaluates c inherited a v) : ∃ v, Evaluates c inherited (some n) v := by
  cases hform : isInterpreted (some n) with
  | false => exact ⟨.primitive .undefined, .other hform _⟩
  | true =>
    cases n with
    | identifier pos name =>
      cases beq_iff_eq.1 hform
      exact ⟨_, .undefined⟩
    | literal pos value raw =>
      cases value with
      | text t => exact ⟨_, .string⟩
      | null => exact ⟨_, .null⟩
      | int | float | bool => cases hform
    | unary pos operator a =>
      obtain ⟨v, hv⟩ := h a List.mem_cons_self
      simp only [isInterpreted, Bool.or_eq_true, beq_iff_eq] at hform
      rcases hform with rfl | rfl <;> exact ⟨_, .unary hv rfl⟩
    | binary pos operator l r =>
      obtain ⟨v, hv⟩ := h l List.mem_cons_self
      obtain ⟨w, hw⟩ := h r (List.mem_cons_of_mem l List.mem_cons_self)
      obtain ⟨b, hb⟩ := exists_compare?_eq_some c hform v w
      exact ⟨_, .comparison hv hw hb⟩
    | logical pos operator l r =>
      obtain ⟨v, hv⟩ := h l List.mem_cons_self
      obtain ⟨w, hw⟩ := h r (List.mem_cons_of_mem l List.mem_cons_self)
      cases operator with
      | and =>
        cases htruthy : v.truthy with
        | false => exact ⟨_, .andLeft hv htruthy⟩
        | true => exact ⟨_, .andRight hv htruthy hw⟩
      | or | coalesce => cases hform
    | member =>
      obtain ⟨m, name, heq, hmember⟩ := isSuperMember_iff.1 hform
      cases heq
      exact ⟨_, .member hmember⟩
    | program | method | block | exprStmt | ifStmt | call | super | taggedTemplate | other => cases hform

theorem exists_evaluates (c : Conversions) (inherited : CodeUnits → Value) (n : Option Node) :
    ∃ v, Evaluates c inherited n v := by
  have hnone : ∃ v, Evaluates c inherited none v := ⟨.primitive .undefined, .other rfl _⟩
  cases n with
  | none => exact hnone
  | some n =>
    induction n using Node.inductionOn with
    | step n ih =>
      apply exists_evaluates_of_slots
      intro a ha
      cases a with
      | none => exact hnone
      | some m => exact ih m ha

end Js

end ElementLint
