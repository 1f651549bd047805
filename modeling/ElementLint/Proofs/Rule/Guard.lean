import ElementLint.Proofs.Rule.TestMeaning

/-!
# Guards

`HasOperand` says what a test is put together from with conjunctions and double negations. A test is a
guard if one of its operands is (`isGuard_iff`), and it passes if all of them do (`passes_iff`). An operand that
is a guard is a member that is tested for itself, or a comparison of a member or of its type, and with one
exception it passes only if the member has a value other than `undefined`.

The exception is the strict comparison of a member with `null`: a member that is missing is `undefined`, which
differs strictly from `null`, so that the comparison passes.
-/

namespace ElementLint

namespace GuardSuperCall

open Js

/-- The operands of a test, through conjunctions and double negations. -/
inductive HasOperand : Option Node → Option Node → Prop
  | self {n : Option Node} (hnegated : doubleNegated? n = none) (hconjuncts : conjuncts? n = none) :
      HasOperand n n
  | negated {pos pos' : Position} {a o : Option Node} (h : HasOperand a o) :
      HasOperand (some (.unary pos "!" (some (.unary pos' "!" a)))) o
  | left {pos : Position} {l r o : Option Node} (h : HasOperand l o) :
      HasOperand (some (.logical pos .and l r)) o
  | right {pos : Position} {l r o : Option Node} (h : HasOperand r o) :
      HasOperand (some (.logical pos .and l r)) o

/-- The node compares the inherited member with a name strictly with `null`, on either side. -/
inductive ComparesWithNull : Option Node → CodeUnits → Prop
  | left {pos nullPos : Position} {raw : Text} {m : Node} {name : CodeUnits} (h : SuperMember m name) :
      ComparesWithNull (some (.binary pos "!==" (some m) (some (.literal nullPos .null raw)))) name
  | right {pos nullPos : Position} {raw : Text} {m : Node} {name : CodeUnits} (h : SuperMember m name) :
      ComparesWithNull (some (.binary pos "!==" (some (.literal nullPos .null raw)) (some m))) name

/-- The inherited member with a name stands somewhere in a test. -/
def Mentions (test : Option Node) (name : CodeUnits) : Prop :=
  ∃ n a m, test = some n ∧ n.at? a = some m ∧ SuperMember m name

/-- A test may have a value with which it passes. -/
def Passes (c : Conversions) (inherited : CodeUnits → Value) (test : Option Node) : Prop :=
  ∃ v, Evaluates c inherited test v ∧ v.truthy = true

/-- A test passes only if an inherited member that it mentions has a value other than `undefined`. -/
def PassesOnlyWithMember (test : Option Node) : Prop :=
  ∀ c inherited, Passes c inherited test →
    ∃ name, Mentions test name ∧ inherited name ≠ .primitive .undefined

/-! ## Guards by their form -/

theorem operandsOf_append (pending pending' : List (Option Node)) :
    operandsOf (pending ++ pending') = operandsOf pending ++ operandsOf pending' := by
  fun_induction operandsOf pending with
  | case1 => rfl
  | case2 n rest left right h ih => rw [List.cons_append, operandsOf_cons_and h]; exact ih
  | case3 n rest h ih => rw [List.cons_append, operandsOf_cons_leaf h, ih, List.cons_append]

theorem andOperands_of_conjuncts? {n l r : Option Node} (h : conjuncts? n = some (l, r)) :
    andOperands n = andOperands l ++ andOperands r := by
  rw [andOperands, operandsOf_cons_and h]
  exact operandsOf_append [l] [r]

theorem andOperands_of_leaf {n : Option Node} (h : conjuncts? n = none) : andOperands n = [n] := by
  rw [andOperands, operandsOf_cons_leaf h, operandsOf_nil]

theorem conjuncts?_eq_some_iff {n l r : Option Node} :
    conjuncts? n = some (l, r) ↔ ∃ pos, n = some (.logical pos .and l r) := by
  unfold conjuncts?
  split
  · simp [eq_comm]
  · rename_i hn
    refine iff_of_false nofun ?_
    rintro ⟨pos, rfl⟩
    exact hn _ _ _ rfl

theorem doubleNegated?_eq_some_iff {n a : Option Node} :
    doubleNegated? n = some a ↔ ∃ pos pos', n = some (.unary pos "!" (some (.unary pos' "!" a))) := by
  unfold doubleNegated?
  split
  · simp
  · rename_i hn
    refine iff_of_false nofun ?_
    rintro ⟨pos, pos', rfl⟩
    exact hn _ _ _ rfl

theorem isGuard_conjunction (pos : Position) (l r : Option Node) :
    isGuard (some (.logical pos .and l r)) =
      (andOperands (some (.logical pos .and l r))).any isGuard := by
  rw [isGuard]
  simp [isSuperMember, isSuperComparison, doubleNegated?, conjuncts?]

theorem any_isGuard_andOperands (n : Option Node) : (andOperands n).any isGuard = isGuard n := by
  cases h : conjuncts? n with
  | none => simp [andOperands_of_leaf h]
  | some s =>
    obtain ⟨pos, rfl⟩ := conjuncts?_eq_some_iff.1 h
    rw [isGuard_conjunction]

/-- A conjunction is a guard if one of its sides is. -/
theorem isGuard_and (pos : Position) (l r : Option Node) :
    isGuard (some (.logical pos .and l r)) = (isGuard l || isGuard r) := by
  rw [isGuard_conjunction, andOperands_of_conjuncts? rfl, List.any_append, any_isGuard_andOperands,
    any_isGuard_andOperands]

theorem isGuard_not_not (pos pos' : Position) (a : Option Node) :
    isGuard (some (.unary pos "!" (some (.unary pos' "!" a)))) = isGuard a := by
  rw [isGuard]
  split
  · rename_i argument h
    have heq : a = argument := Option.some.inj h
    rw [heq]
    rfl
  · rename_i h _
    cases h
  · rename_i h _
    cases h

theorem isGuard_of_leaf {n : Option Node} (hnegated : doubleNegated? n = none)
    (hconjuncts : conjuncts? n = none) : isGuard n = (isSuperMember n || isSuperComparison n) := by
  rw [isGuard]
  split
  · rename_i h
    rw [hnegated] at h
    cases h
  · rename_i h
    rw [hconjuncts] at h
    cases h
  · exact Bool.or_false _

/-- What holds of all that is neither a conjunction nor a double negation, and is kept by both, holds of
every test. -/
theorem testInduction {P : Option Node → Prop}
    (self : ∀ n, doubleNegated? n = none → conjuncts? n = none → P n)
    (negated : ∀ pos pos' a, P a → P (some (.unary pos "!" (some (.unary pos' "!" a)))))
    (and : ∀ pos l r, P l → P r → P (some (.logical pos .and l r))) (n : Option Node) : P n := by
  induction hk : Node.sizeOption n using Nat.strongRecOn generalizing n with
  | ind k ih =>
    subst hk
    cases hnegated : doubleNegated? n with
    | some a =>
      have hsize := sizeOption_of_doubleNegated? hnegated
      obtain ⟨pos, pos', rfl⟩ := doubleNegated?_eq_some_iff.1 hnegated
      exact negated pos pos' a (ih _ (by omega) a rfl)
    | none =>
      cases hconjuncts : conjuncts? n with
      | none => exact self n hnegated hconjuncts
      | some s =>
        have hsize := sizeOption_of_conjuncts? hconjuncts
        obtain ⟨pos, rfl⟩ := conjuncts?_eq_some_iff.1 hconjuncts
        -- A conjunction is larger by one than its sides together.
        exact and pos s.1 s.2 (ih _ (by omega) s.1 rfl) (ih _ (by omega) s.2 rfl)

theorem hasOperand_self_iff {n o : Option Node} (hnegated : doubleNegated? n = none)
    (hconjuncts : conjuncts? n = none) : HasOperand n o ↔ o = n := by
  constructor
  · intro h
    cases h with
    | self => rfl
    | negated => cases hnegated
    | left | right => cases hconjuncts
  · rintro rfl
    exact .self hnegated hconjuncts

theorem hasOperand_not_not_iff {pos pos' : Position} {a o : Option Node} :
    HasOperand (some (.unary pos "!" (some (.unary pos' "!" a)))) o ↔ HasOperand a o := by
  constructor
  · intro h
    cases h with
    | self hnegated => cases hnegated
    | negated h => exact h
  · exact .negated

theorem hasOperand_and_iff {pos : Position} {l r o : Option Node} :
    HasOperand (some (.logical pos .and l r)) o ↔ HasOperand l o ∨ HasOperand r o := by
  constructor
  · intro h
    cases h with
    | self _ hconjuncts => cases hconjuncts
    | left h => exact .inl h
    | right h => exact .inr h
  · rintro (h | h)
    · exact .left h
    · exact .right h

/-- A test is a guard if one of its operands is. -/
theorem isGuard_iff {n : Option Node} : isGuard n = true ↔ ∃ o, HasOperand n o ∧ isGuard o = true := by
  induction n using testInduction with
  | self n hnegated hconjuncts => simp [hasOperand_self_iff hnegated hconjuncts]
  | negated pos pos' a ih => simp only [isGuard_not_not, hasOperand_not_not_iff, ih]
  | and pos l r ihl ihr =>
    simp only [isGuard_and, Bool.or_eq_true, hasOperand_and_iff, or_and_right, exists_or, ← ihl, ← ihr]

theorem leaf_of_hasOperand {test o : Option Node} (h : HasOperand test o) :
    doubleNegated? o = none ∧ conjuncts? o = none := by
  induction h with
  | self hnegated hconjuncts => exact ⟨hnegated, hconjuncts⟩
  | negated _ ih | left _ ih | right _ ih => exact ih

/-- An operand that is a guard is a member, or a comparison of one. -/
theorem isGuard_operand {test o : Option Node} (h : HasOperand test o) :
    isGuard o = true ↔ isSuperMember o = true ∨ isSuperComparison o = true := by
  obtain ⟨hnegated, hconjuncts⟩ := leaf_of_hasOperand h
  rw [isGuard_of_leaf hnegated hconjuncts, Bool.or_eq_true]

/-! ## Guards by their meaning -/

theorem Mentions.of_slot {n : Node} {a : Option Node} {i : Nat} {name : CodeUnits}
    (hslot : n.slots[i]? = some a) (h : Mentions a name) : Mentions (some n) name := by
  obtain ⟨m, rest, k, rfl, hk, hname⟩ := h
  refine ⟨n, i :: rest, k, rfl, ?_, hname⟩
  rw [Node.at?_cons, Node.slot?_eq_some_iff.2 hslot]
  exact hk

theorem mentions_of_superMember {m : Node} {name : CodeUnits} (h : SuperMember m name) :
    Mentions (some m) name := ⟨m, [], m, rfl, rfl, h⟩

/-- What stands in an operand stands in the test. -/
theorem Mentions.of_hasOperand {test o : Option Node} {name : CodeUnits} (h : HasOperand test o)
    (ho : Mentions o name) : Mentions test name := by
  induction h with
  | self => exact ho
  | negated _ ih => exact .of_slot (i := 0) rfl (.of_slot (i := 0) rfl (ih ho))
  | left _ ih => exact .of_slot (i := 0) rfl (ih ho)
  | right _ ih => exact .of_slot (i := 1) rfl (ih ho)

variable {c : Conversions} {inherited : CodeUnits → Value}

theorem truthy_not_not (v : Value) :
    (Value.primitive (.bool !(Value.primitive (.bool !v.truthy)).truthy)).truthy = v.truthy := by
  simp [Value.truthy, Primitive.truthy]

theorem passes_not_not {pos pos' : Position} {a : Option Node} :
    Passes c inherited (some (.unary pos "!" (some (.unary pos' "!" a)))) ↔ Passes c inherited a := by
  constructor
  · rintro ⟨v, h, hv⟩
    obtain ⟨u, hu, huv⟩ := evaluates_unary rfl h
    obtain ⟨t, ht, htu⟩ := evaluates_unary rfl hu
    cases huv
    cases htu
    exact ⟨t, ht, truthy_not_not t ▸ hv⟩
  · rintro ⟨v, h, hv⟩
    exact ⟨_, .unary (.unary h rfl) rfl, (truthy_not_not v).trans hv⟩

theorem passes_and {pos : Position} {l r : Option Node} :
    Passes c inherited (some (.logical pos .and l r)) ↔ Passes c inherited l ∧ Passes c inherited r := by
  constructor
  · rintro ⟨v, h, hv⟩
    rcases evaluates_and h with ⟨-, hfalse⟩ | ⟨u, hl, hu, hr⟩
    · rw [hfalse] at hv
      cases hv
    · exact ⟨⟨u, hl, hu⟩, v, hr, hv⟩
  · rintro ⟨⟨u, hl, hu⟩, v, hr, hv⟩
    exact ⟨v, .andRight hl hu hr, hv⟩

/-- A test passes if all its operands do. -/
theorem passes_iff {test : Option Node} :
    Passes c inherited test ↔ ∀ o, HasOperand test o → Passes c inherited o := by
  induction test using testInduction with
  | self n hnegated hconjuncts => simp [hasOperand_self_iff hnegated hconjuncts]
  | negated pos pos' a ih => simp only [passes_not_not, hasOperand_not_not_iff, ih]
  | and pos l r ihl ihr => simp only [passes_and, hasOperand_and_iff, or_imp, forall_and, ihl, ihr]

theorem isTypeofSuper_iff {n : Option Node} :
    isTypeofSuper n = true ↔
      ∃ pos m name, n = some (.unary pos "typeof" (some m)) ∧ SuperMember m name := by
  unfold isTypeofSuper
  split
  · rw [isSuperMember_iff]
    simp
  · rename_i hn
    refine iff_of_false nofun ?_
    rintro ⟨pos, m, name, rfl, -⟩
    exact hn _ _ rfl

theorem isLiteral_iff {value : LiteralValue} {n : Option Node} :
    isLiteral value n = true ↔ ∃ pos raw, n = some (.literal pos value raw) := by
  unfold isLiteral
  split
  · simp
  · rename_i hn
    refine iff_of_false nofun ?_
    rintro ⟨pos, raw, rfl⟩
    exact hn _ _ _ rfl

theorem isUndefined_iff {n : Option Node} :
    isUndefined n = true ↔
      (∃ pos, n = some (.identifier pos "undefined")) ∨ isLiteral .null n = true := by
  unfold isUndefined isLiteral
  split
  · simp
  · simp
  · rename_i hidentifier hliteral
    refine iff_of_false nofun ?_
    rintro (⟨pos, rfl⟩ | h)
    · exact hidentifier _ _ rfl
    · split at h
      · exact hliteral _ _ _ rfl
      · cases h

/-- Without the member with a name the comparison of two expressions does not hold, whichever of them comes
first. -/
def FailsWithout (c : Conversions) (inherited : CodeUnits → Value) (operator : String)
    (a b : Option Node) (name : CodeUnits) : Prop :=
  inherited name = .primitive .undefined → ∀ u w, Evaluates c inherited a u → Evaluates c inherited b w →
    compare? c operator u w = some false ∧ compare? c operator w u = some false

theorem evaluates_typeofSuper {pos : Position} {m : Node} {name : CodeUnits} (hm : SuperMember m name)
    (hmissing : inherited name = .primitive .undefined) {v : Value}
    (h : Evaluates c inherited (some (.unary pos "typeof" (some m))) v) :
    v = .primitive (.string (Text.ofString "undefined").codeUnits) := by
  obtain ⟨u, hu, hv⟩ := evaluates_unary rfl h
  rw [evaluates_member hm hu, hmissing] at hv
  exact (Option.some.inj hv).symm

/-- The type of a missing member is not that of a function. -/
theorem exists_failsWithout_of_tellsFunction {a b : Option Node} {operator : String}
    (h : tellsFunction a b = true) (hop : isEquality operator = true) :
    ∃ name, Mentions a name ∧ FailsWithout c inherited operator a b name := by
  rw [tellsFunction, Bool.and_eq_true, isTypeofSuper_iff, isLiteral_iff] at h
  obtain ⟨⟨pos, m, name, rfl, hm⟩, _, _, rfl⟩ := h
  refine ⟨name, .of_slot (i := 0) rfl (mentions_of_superMember hm), ?_⟩
  intro hmissing u w hu hw
  rw [evaluates_typeofSuper hm hmissing hu, evaluates_string hw]
  simp only [isEquality, Bool.or_eq_true, beq_iff_eq] at hop
  rcases hop with rfl | rfl <;> exact ⟨rfl, rfl⟩

/-- A missing member is `undefined`, and equals `null` unless the comparison is strict. -/
theorem exists_failsWithout_of_tellsDefined {a b : Option Node} {operator : String}
    (h : tellsDefined a b = true) (hop : isInequality operator = true)
    (hnull : ¬(operator = "!==" ∧ isSuperMember a = true ∧ isLiteral .null b = true)) :
    ∃ name, Mentions a name ∧ FailsWithout c inherited operator a b name := by
  simp only [isInequality, Bool.or_eq_true, beq_iff_eq] at hop
  rw [tellsDefined, Bool.or_eq_true, Bool.and_eq_true, Bool.and_eq_true, isUndefined_iff] at h
  rcases h with ⟨htypeof, hliteral⟩ | ⟨hmember, hundefined⟩
  · obtain ⟨pos, m, name, rfl, hm⟩ := isTypeofSuper_iff.1 htypeof
    obtain ⟨_, _, rfl⟩ := isLiteral_iff.1 hliteral
    refine ⟨name, .of_slot (i := 0) rfl (mentions_of_superMember hm), ?_⟩
    intro hmissing u w hu hw
    rw [evaluates_typeofSuper hm hmissing hu, evaluates_string hw]
    rcases hop with rfl | rfl <;> exact ⟨rfl, rfl⟩
  · obtain ⟨m, name, rfl, hm⟩ := isSuperMember_iff.1 hmember
    refine ⟨name, mentions_of_superMember hm, ?_⟩
    intro hmissing u w hu hw
    rw [evaluates_member hm hu, hmissing]
    rcases hundefined with ⟨_, rfl⟩ | hliteral
    · rw [evaluates_undefined hw]
      rcases hop with rfl | rfl <;> exact ⟨rfl, rfl⟩
    · rcases hop with rfl | rfl
      · exact absurd ⟨rfl, hmember, hliteral⟩ hnull
      · obtain ⟨_, _, rfl⟩ := isLiteral_iff.1 hliteral
        rw [evaluates_null hw]
        exact ⟨rfl, rfl⟩

theorem comparesWithNull_of_sides {pos : Position} {operator : String} {a b : Option Node}
    (h : operator = "!==" ∧ isSuperMember a = true ∧ isLiteral .null b = true) :
    (∃ name, ComparesWithNull (some (.binary pos operator a b)) name) ∧
      ∃ name, ComparesWithNull (some (.binary pos operator b a)) name := by
  obtain ⟨rfl, hmember, hliteral⟩ := h
  obtain ⟨m, name, rfl, hm⟩ := isSuperMember_iff.1 hmember
  obtain ⟨_, _, rfl⟩ := isLiteral_iff.1 hliteral
  exact ⟨⟨name, .left hm⟩, name, .right hm⟩

theorem isInterpreted_of_comparesSuper {pos : Position} {operator : String} {l r : Option Node}
    (h : comparesSuper operator l r = true) : isInterpreted (some (.binary pos operator l r)) = true := by
  rw [comparesSuper] at h
  split at h
  · rename_i hop
    simp only [isEquality, Bool.or_eq_true, beq_iff_eq] at hop
    rcases hop with rfl | rfl <;> rfl
  · split at h
    · rename_i hop
      simp only [isInequality, Bool.or_eq_true, beq_iff_eq] at hop
      rcases hop with rfl | rfl <;> rfl
    · cases h

/-- A comparison that is a guard does not hold without its member, unless it is a strict one with `null`. -/
theorem exists_failsWithout_of_comparesSuper {pos : Position} {operator : String} {l r : Option Node}
    (h : comparesSuper operator l r = true)
    (hnull : ¬∃ name, ComparesWithNull (some (.binary pos operator l r)) name) :
    ∃ name, Mentions (some (.binary pos operator l r)) name ∧
      (FailsWithout c inherited operator l r name ∨ FailsWithout c inherited operator r l name) := by
  rw [comparesSuper] at h
  split at h
  · rename_i hop
    rcases Bool.or_eq_true_iff.1 h with h | h
    · obtain ⟨name, hname, hfails⟩ := exists_failsWithout_of_tellsFunction h hop
      exact ⟨name, .of_slot (i := 0) rfl hname, .inl hfails⟩
    · obtain ⟨name, hname, hfails⟩ := exists_failsWithout_of_tellsFunction h hop
      exact ⟨name, .of_slot (i := 1) rfl hname, .inr hfails⟩
  · split at h
    · rename_i hop
      rcases Bool.or_eq_true_iff.1 h with h | h
      · obtain ⟨name, hname, hfails⟩ := exists_failsWithout_of_tellsDefined h hop
          fun h => hnull (comparesWithNull_of_sides h).1
        exact ⟨name, .of_slot (i := 0) rfl hname, .inl hfails⟩
      · obtain ⟨name, hname, hfails⟩ := exists_failsWithout_of_tellsDefined h hop
          fun h => hnull (comparesWithNull_of_sides h).2
        exact ⟨name, .of_slot (i := 1) rfl hname, .inr hfails⟩
    · cases h

/-- A member or a comparison of one passes only if the member is there, unless it is a strict comparison
with `null`. -/
theorem passesOnlyWithMember_of_leaf {o : Option Node}
    (ho : isSuperMember o = true ∨ isSuperComparison o = true)
    (hnull : ¬∃ name, ComparesWithNull o name) : PassesOnlyWithMember o := by
  rintro c inherited ⟨v, h, hv⟩
  rcases ho with ho | ho
  · obtain ⟨m, name, rfl, hm⟩ := isSuperMember_iff.1 ho
    refine ⟨name, mentions_of_superMember hm, fun hmissing => ?_⟩
    rw [evaluates_member hm h, hmissing] at hv
    cases hv
  · unfold isSuperComparison at ho
    split at ho
    · rename_i pos operator l r
      obtain ⟨name, hname, hfails⟩ := exists_failsWithout_of_comparesSuper ho hnull
      refine ⟨name, hname, fun hmissing => ?_⟩
      obtain ⟨u, w, b, hu, hw, hb, rfl⟩ := evaluates_comparison (isInterpreted_of_comparesSuper ho) h
      have hfalse : compare? c operator u w = some false := by
        rcases hfails with hfails | hfails
        · exact (hfails hmissing u w hu hw).1
        · exact (hfails hmissing w u hw hu).2
      cases hb.symm.trans hfalse
      cases hv
    · cases ho

theorem operator_of_comparesWithNull {pos : Position} {operator : String} {l r : Option Node}
    {name : CodeUnits} (h : ComparesWithNull (some (.binary pos operator l r)) name) : operator = "!==" := by
  cases h <;> rfl

theorem isGuard_of_comparesWithNull {o : Option Node} {name : CodeUnits} (h : ComparesWithNull o name) :
    isGuard o = true := by
  have hmember {m : Node} (hm : SuperMember m name) : isSuperMember (some m) = true :=
    isSuperMember_iff.2 ⟨m, name, rfl, hm⟩
  cases h with
  | left hm | right hm =>
    rw [isGuard_of_leaf rfl rfl]
    simp [isSuperComparison, comparesSuper, isEquality, isInequality, tellsDefined, hmember hm, isUndefined]

theorem mentions_of_comparesWithNull {o : Option Node} {name : CodeUnits} (h : ComparesWithNull o name) :
    Mentions o name := by
  cases h with
  | left hm => exact .of_slot (i := 0) rfl (mentions_of_superMember hm)
  | right hm => exact .of_slot (i := 1) rfl (mentions_of_superMember hm)

/-- A strict comparison with `null` holds if the member is missing. -/
theorem passes_of_comparesWithNull {o : Option Node} {name : CodeUnits} (h : ComparesWithNull o name)
    (hmissing : inherited name = .primitive .undefined) : Passes c inherited o := by
  cases h with
  | left hm => exact ⟨_, .comparison (.member hm) .null (by rw [hmissing]; rfl), rfl⟩
  | right hm => exact ⟨_, .comparison .null (.member hm) (by rw [hmissing]; rfl), rfl⟩

/-- A test is a guard if one of its operands is. It passes only with a member if one of these guards is no
strict comparison with `null`, or if without the members in it some other operand fails in any case. A strict
comparison with `null` is a guard that passes without its member. -/
theorem guard_passes_only_with_member (test : Option Node) :
    (isGuard test = true ↔ ∃ o, HasOperand test o ∧ isGuard o = true) ∧
    (PassesOnlyWithMember test ↔
      (∃ o, HasOperand test o ∧ isGuard o = true ∧ ¬∃ name, ComparesWithNull o name) ∨
      ∀ c inherited, (∀ name, Mentions test name → inherited name = .primitive .undefined) →
        ∃ o, HasOperand test o ∧ isGuard o = false ∧ ¬Passes c inherited o) ∧
    ∀ name, ComparesWithNull test name → isGuard test = true ∧ ¬PassesOnlyWithMember test := by
  refine ⟨isGuard_iff, ⟨?_, ?_⟩, ?_⟩
  · intro honly
    by_contra hnot
    push Not at hnot
    obtain ⟨hguards, c, inherited, hmissing, hothers⟩ := hnot
    have hpasses : Passes c inherited test := by
      refine passes_iff.2 fun o ho => ?_
      cases hguard : isGuard o with
      | false => exact hothers o ho hguard
      | true =>
        obtain ⟨name, hname⟩ := hguards o ho hguard
        exact passes_of_comparesWithNull hname
          (hmissing name (.of_hasOperand ho (mentions_of_comparesWithNull hname)))
    obtain ⟨name, hname, hpresent⟩ := honly c inherited hpasses
    exact hpresent (hmissing name hname)
  · rintro (⟨o, ho, hguard, hnull⟩ | hothers) c inherited hpasses
    · obtain ⟨name, hname, hpresent⟩ := passesOnlyWithMember_of_leaf ((isGuard_operand ho).1 hguard) hnull
        c inherited (passes_iff.1 hpasses o ho)
      exact ⟨name, hname.of_hasOperand ho, hpresent⟩
    · by_contra hmissing
      push Not at hmissing
      obtain ⟨o, ho, -, hfails⟩ := hothers c inherited hmissing
      exact hfails (passes_iff.1 hpasses o ho)
  · intro name hname
    refine ⟨isGuard_of_comparesWithNull hname, fun honly => ?_⟩
    obtain ⟨_, -, hpresent⟩ := honly ⟨fun _ => .nan, fun _ => none, fun _ => .undefined⟩
      (fun _ => .primitive .undefined) (passes_of_comparesWithNull hname rfl)
    exact hpresent rfl

/-- The member `super.connectedCallback`. -/
def inheritedCallback : Option Node :=
  some (.member ⟨1, 1⟩ (some (.super ⟨1, 1⟩)) (some (.identifier ⟨1, 7⟩ "connectedCallback")) false false)

/-- The test `super.connectedCallback !== null`. -/
def differsFromNull : Option Node :=
  some (.binary ⟨1, 1⟩ "!==" inheritedCallback (some (.literal ⟨1, 1⟩ .null "null")))

/-- The test `typeof super.connectedCallback === 'function'`. -/
def isFunction : Option Node :=
  some (.binary ⟨1, 1⟩ "===" (some (.unary ⟨1, 1⟩ "typeof" inheritedCallback))
    (some (.literal ⟨1, 1⟩ (.text "function") "'function'")))

/-- Both tests together pass only with the callback, and the comparison with `null` does without it. -/
theorem guard_passes_only_with_member_function :
    isGuard (some (.logical ⟨1, 1⟩ .and differsFromNull isFunction)) = true ∧
      PassesOnlyWithMember (some (.logical ⟨1, 1⟩ .and differsFromNull isFunction)) ∧
      ComparesWithNull differsFromNull (Text.codeUnits "connectedCallback") ∧
      isGuard differsFromNull = true ∧ ¬PassesOnlyWithMember differsFromNull := by
  obtain ⟨hguard, honly, -⟩ :=
    guard_passes_only_with_member (some (.logical ⟨1, 1⟩ .and differsFromNull isFunction))
  obtain ⟨-, -, hnull⟩ := guard_passes_only_with_member differsFromNull
  have hcompares : ComparesWithNull differsFromNull (Text.codeUnits "connectedCallback") := .left .named
  have hoperand : HasOperand (some (.logical ⟨1, 1⟩ .and differsFromNull isFunction)) isFunction :=
    .right (.self rfl rfl)
  have hfunction : isGuard isFunction = true := (isGuard_operand hoperand).2 (.inr rfl)
  refine ⟨hguard.2 ⟨_, hoperand, hfunction⟩, honly.2 (.inl ⟨_, hoperand, hfunction, ?_⟩), hcompares,
    hnull _ hcompares⟩
  rintro ⟨name, hname⟩
  exact absurd (operator_of_comparesWithNull hname) (by decide)

end GuardSuperCall

end ElementLint
