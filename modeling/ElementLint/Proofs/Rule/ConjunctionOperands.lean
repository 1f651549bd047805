import ElementLint.Proofs.Rule.Guard

/-!
# Operands of conjunctions

The operands of a test are found with a list of the nodes that are still to be looked at, and whether a test is
a guard is asked of each operand in turn. Both come to a recursion on the test itself: `LeafAt` says which nodes
the conjunctions at its root end in, and where, and `guards` says what a guard is, one construct at a time.

It follows that a chain of conjunctions is a guard or not whatever the order in which its operands are put
together, and wherever they stand (`isGuard_eq_guards`).
-/

namespace ElementLint

namespace Node

/-! ## Nodes without their places -/

mutual

/-- A node with all positions in it set to one place. -/
def unplaced : Node → Node
  | .program _ body => .program default (unplacedList body)
  | .method _ name params body => .method default name (unplacedOption params) (unplacedOption body)
  | .block _ body => .block default (unplacedList body)
  | .exprStmt _ expr => .exprStmt default (unplaced expr)
  | .ifStmt _ test consequent alternate =>
    .ifStmt default (unplacedOption test) (unplacedOption consequent) (unplacedOption alternate)
  | .call _ callee arguments optional =>
    .call default (unplacedOption callee) (unplacedList arguments) optional
  | .member _ object property computed optional =>
    .member default (unplacedOption object) (unplacedOption property) computed optional
  | .identifier _ name => .identifier default name
  | .super _ => .super default
  | .literal _ value raw => .literal default value raw
  | .logical _ operator left right =>
    .logical default operator (unplacedOption left) (unplacedOption right)
  | .binary _ operator left right =>
    .binary default operator (unplacedOption left) (unplacedOption right)
  | .unary _ operator argument => .unary default operator (unplacedOption argument)
  | .taggedTemplate _ tag template => .taggedTemplate default (unplacedOption tag) (unplaced template)
  | .other _ type body => .other default type (unplacedList body)

def unplacedOption : Option Node → Option Node
  | none => none
  | some n => some (unplaced n)

def unplacedList : List Node → List Node
  | [] => []
  | n :: rest => unplaced n :: unplacedList rest

end

end Node

namespace GuardSuperCall

open Node

theorem isSuperMember_unplaced (n : Option Node) : isSuperMember (unplacedOption n) = isSuperMember n := by
  rcases n with _ | n
  · rfl
  · cases n with
    | member pos object property computed optional =>
      rcases object with _ | object
      · rfl
      · cases object with
        | super =>
          rcases property with _ | property
          · rfl
          · cases property with
            | literal _ value _ => cases value <;> rfl
            | _ => rfl
        | _ => rfl
    | _ => rfl

theorem isTypeofSuper_unplaced (n : Option Node) : isTypeofSuper (unplacedOption n) = isTypeofSuper n := by
  rcases n with _ | n
  · rfl
  · cases n with
    | unary pos operator argument =>
      by_cases h : operator = "typeof"
      · subst h
        exact isSuperMember_unplaced argument
      · have hnot (pos' : Position) (a : Option Node) :
            isTypeofSuper (some (.unary pos' operator a)) = false := by
          simp [isTypeofSuper, h]
        exact (hnot _ _).trans (hnot _ _).symm
    | _ => rfl

theorem isLiteral_unplaced (value : LiteralValue) (n : Option Node) :
    isLiteral value (unplacedOption n) = isLiteral value n := by
  rcases n with _ | n
  · rfl
  · cases n <;> rfl

theorem isUndefined_unplaced (n : Option Node) : isUndefined (unplacedOption n) = isUndefined n := by
  rcases n with _ | n
  · rfl
  · cases n <;> rfl

theorem comparesSuper_unplaced (operator : String) (l r : Option Node) :
    comparesSuper operator (unplacedOption l) (unplacedOption r) = comparesSuper operator l r := by
  simp only [comparesSuper, tellsFunction, tellsDefined, isTypeofSuper_unplaced, isLiteral_unplaced,
    isSuperMember_unplaced, isUndefined_unplaced]

theorem isSuperComparison_unplaced (n : Option Node) :
    isSuperComparison (unplacedOption n) = isSuperComparison n := by
  rcases n with _ | n
  · rfl
  · cases n with
    | binary pos operator left right => exact comparesSuper_unplaced operator left right
    | _ => rfl

theorem exists_of_unplaced_eq_unary {n a : Option Node} {pos : Position} {operator : String}
    (h : unplacedOption n = some (.unary pos operator a)) :
    ∃ pos' a', n = some (.unary pos' operator a') ∧ unplacedOption a' = a := by
  rcases n with _ | n
  · cases h
  · cases n with
    | unary pos' operator' a' =>
      cases h
      exact ⟨pos', a', rfl, rfl⟩
    | _ => cases h

theorem doubleNegated?_unplaced {n : Option Node} (h : doubleNegated? n = none) :
    doubleNegated? (unplacedOption n) = none := by
  rw [Option.eq_none_iff_forall_ne_some]
  intro a ha
  obtain ⟨pos, pos', heq⟩ := doubleNegated?_eq_some_iff.1 ha
  obtain ⟨_, _, rfl, hinner⟩ := exists_of_unplaced_eq_unary heq
  obtain ⟨_, _, rfl, -⟩ := exists_of_unplaced_eq_unary hinner
  cases h

theorem conjuncts?_unplaced {n : Option Node} (h : conjuncts? n = none) :
    conjuncts? (unplacedOption n) = none := by
  rcases n with _ | n
  · rfl
  · cases n with
    | logical pos operator left right =>
      cases operator with
      | and => cases h
      | or | coalesce => rfl
    | _ => rfl

/-- Where the nodes of a test stand has no part in whether it is a guard. -/
theorem isGuard_unplaced (n : Option Node) : isGuard (unplacedOption n) = isGuard n := by
  induction n using testInduction with
  | self n hnegated hconjuncts =>
    rw [isGuard_of_leaf (doubleNegated?_unplaced hnegated) (conjuncts?_unplaced hconjuncts),
      isGuard_of_leaf hnegated hconjuncts, isSuperMember_unplaced, isSuperComparison_unplaced]
  | negated pos pos' a ih =>
    exact (isGuard_not_not _ _ _).trans (ih.trans (isGuard_not_not pos pos' a).symm)
  | and pos l r ihl ihr =>
    have hunplaced : unplacedOption (some (.logical pos .and l r)) =
        some (.logical default .and (unplacedOption l) (unplacedOption r)) := rfl
    rw [hunplaced, isGuard_and, isGuard_and, ihl, ihr]

/-! ## Leaves of conjunctions -/

/-- The conjunctions at the root of a test end, at an address, in a node that is none. -/
inductive LeafAt : Option Node → Address → Option Node → Prop
  | self {n : Option Node} (hconjuncts : conjuncts? n = none) : LeafAt n [] n
  | left {pos : Position} {l r o : Option Node} {a : Address} (h : LeafAt l a o) :
      LeafAt (some (.logical pos .and l r)) (0 :: a) o
  | right {pos : Position} {l r o : Option Node} {a : Address} (h : LeafAt r a o) :
      LeafAt (some (.logical pos .and l r)) (1 :: a) o

mutual

def leavesOf : Node → List (Address × Option Node)
  | .logical _ .and left right =>
    (leaves left).map (fun o => (0 :: o.1, o.2)) ++ (leaves right).map fun o => (1 :: o.1, o.2)
  | n => [([], some n)]

/-- The leaves of the conjunctions at the root of a test, with their addresses. -/
def leaves : Option Node → List (Address × Option Node)
  | none => [([], none)]
  | some n => leavesOf n

end

theorem leaves_and (pos : Position) (l r : Option Node) :
    leaves (some (.logical pos .and l r)) =
      (leaves l).map (fun o => (0 :: o.1, o.2)) ++ (leaves r).map fun o => (1 :: o.1, o.2) := by
  rw [leaves, leavesOf]

theorem leaves_of_leaf {n : Option Node} (h : conjuncts? n = none) : leaves n = [([], n)] := by
  rcases n with _ | n
  · rw [leaves]
  · rw [leaves, leavesOf.eq_def]
    split
    · cases h
    · rfl

/-- What holds of all that is no conjunction and is kept by conjunctions holds of every test. -/
theorem conjunctionInduction {P : Option Node → Prop} (leaf : ∀ n, conjuncts? n = none → P n)
    (and : ∀ pos l r, P l → P r → P (some (.logical pos .and l r))) (n : Option Node) : P n := by
  induction n using testInduction with
  | self n _ hconjuncts => exact leaf n hconjuncts
  | negated pos pos' a _ => exact leaf _ rfl
  | and pos l r ihl ihr => exact and pos l r ihl ihr

theorem leafAt_iff_of_leaf {n o : Option Node} {a : Address} (h : conjuncts? n = none) :
    LeafAt n a o ↔ a = [] ∧ o = n := by
  constructor
  · intro hleaf
    cases hleaf with
    | self => exact ⟨rfl, rfl⟩
    | left | right => cases h
  · rintro ⟨rfl, rfl⟩
    exact .self h

theorem leafAt_and_iff {pos : Position} {l r o : Option Node} {a : Address} :
    LeafAt (some (.logical pos .and l r)) a o ↔
      (∃ b, a = 0 :: b ∧ LeafAt l b o) ∨ ∃ b, a = 1 :: b ∧ LeafAt r b o := by
  constructor
  · intro h
    cases h with
    | self hconjuncts => cases hconjuncts
    | left h => exact .inl ⟨_, rfl, h⟩
    | right h => exact .inr ⟨_, rfl, h⟩
  · rintro (⟨b, rfl, h⟩ | ⟨b, rfl, h⟩)
    · exact .left h
    · exact .right h

theorem mem_leaves {n o : Option Node} {a : Address} : (a, o) ∈ leaves n ↔ LeafAt n a o := by
  induction n using conjunctionInduction generalizing a with
  | leaf n h => rw [leaves_of_leaf h, leafAt_iff_of_leaf h, List.mem_singleton, Prod.mk.injEq]
  | and pos l r ihl ihr =>
    have hside {i : Nat} {side : Option Node} :
        (a, o) ∈ (leaves side).map (fun x => (i :: x.1, x.2)) ↔ ∃ b, a = i :: b ∧ (b, o) ∈ leaves side := by
      simp only [List.mem_map, Prod.exists, Prod.mk.injEq]
      constructor
      · rintro ⟨b, o, hb, rfl, rfl⟩
        exact ⟨b, rfl, hb⟩
      · rintro ⟨b, rfl, hb⟩
        exact ⟨b, o, hb, rfl, rfl⟩
    simp only [leaves_and, leafAt_and_iff, List.mem_append, hside, ihl, ihr]

/-- The leaves are listed from left to right, each once. -/
theorem pairwise_leaves (n : Option Node) : (leaves n).Pairwise fun o o' => o.1 < o'.1 := by
  induction n using conjunctionInduction with
  | leaf n h => rw [leaves_of_leaf h]; exact List.pairwise_singleton _ _
  | and pos l r ihl ihr =>
    rw [leaves_and, List.pairwise_append, List.pairwise_map, List.pairwise_map]
    refine ⟨ihl.imp ?_, ihr.imp ?_, ?_⟩
    · exact fun h => List.cons_lt_cons_iff.2 (.inr ⟨rfl, h⟩)
    · exact fun h => List.cons_lt_cons_iff.2 (.inr ⟨rfl, h⟩)
    · intro o ho o' ho'
      obtain ⟨_, -, rfl⟩ := List.mem_map.1 ho
      obtain ⟨_, -, rfl⟩ := List.mem_map.1 ho'
      exact List.cons_lt_cons_iff.2 (.inl Nat.zero_lt_one)

/-- The operands that are found are the leaves. -/
theorem andOperands_eq_leaves (n : Option Node) : andOperands n = (leaves n).map Prod.snd := by
  induction n using conjunctionInduction with
  | leaf n h => rw [andOperands_of_leaf h, leaves_of_leaf h]; rfl
  | and pos l r ihl ihr =>
    rw [andOperands_of_conjuncts? rfl, leaves_and, List.map_append, List.map_map, List.map_map, ihl, ihr]
    rfl

/-! ## Guards one construct at a time -/

mutual

/-- Whether a node is a guard, by its construct. -/
def guardsOf : Node → Bool
  | .logical _ .and left right => guards left || guards right
  | .unary _ "!" (some (.unary _ "!" argument)) => guards argument
  | .binary _ operator left right => comparesSuper operator left right
  | n => isSuperMember (some n)

/-- Whether a test is a guard, by its construct: a conjunction if one of its sides is, a double negation if
what it negates is, a comparison if it holds only with an inherited member, and an inherited member itself. -/
def guards : Option Node → Bool
  | none => false
  | some n => guardsOf n

end

theorem guards_of_leaf {n : Option Node} (hnegated : doubleNegated? n = none)
    (hconjuncts : conjuncts? n = none) : guards n = (isSuperMember n || isSuperComparison n) := by
  rcases n with _ | n
  · rfl
  · rw [guards, guardsOf.eq_def]
    split
    · cases hconjuncts
    · cases hnegated
    · rfl
    · rename_i hbinary
      have hcomparison : isSuperComparison (some n) = false := by
        unfold isSuperComparison
        split
        · rename_i heq
          exact absurd (Option.some.inj heq) (hbinary _ _ _ _)
        · rfl
      rw [hcomparison, Bool.or_false]

theorem isGuard_eq (n : Option Node) : isGuard n = guards n := by
  induction n using testInduction with
  | self n hnegated hconjuncts => rw [isGuard_of_leaf hnegated hconjuncts, guards_of_leaf hnegated hconjuncts]
  | negated pos pos' a ih => rw [isGuard_not_not, ih, guards, guardsOf]
  | and pos l r ihl ihr => rw [isGuard_and, ihl, ihr, guards, guardsOf]

/-- A test is a guard if one of its operands is, whatever their places. -/
theorem isGuard_eq_any_unplaced (n : Option Node) :
    isGuard n = ((andOperands n).map unplacedOption).any isGuard := by
  have hunplaced : isGuard ∘ unplacedOption = isGuard := funext isGuard_unplaced
  rw [List.any_map, hunplaced, any_isGuard_andOperands]

/-- The operands of a test are the leaves of its conjunctions, from left to right and each once, and whether
it is a guard is settled one construct at a time. Tests with the same operands in the same order, wherever
these stand and however they are put together, are guards or not together. -/
theorem isGuard_eq_guards (test : Option Node) :
    (∃ found : List (Address × Option Node),
      (∀ a o, (a, o) ∈ found ↔ LeafAt test a o) ∧
      (found.Pairwise fun o o' => o.1 < o'.1) ∧
      andOperands test = found.map Prod.snd) ∧
    isGuard test = guards test ∧
    ∀ test', (andOperands test).map unplacedOption = (andOperands test').map unplacedOption →
      isGuard test = isGuard test' := by
  refine ⟨⟨leaves test, fun a o => mem_leaves, pairwise_leaves test, andOperands_eq_leaves test⟩,
    isGuard_eq test, fun test' h => ?_⟩
  rw [isGuard_eq_any_unplaced test, isGuard_eq_any_unplaced test', h]

/-- The test `!!(a && super.connectedCallback)` at a column. -/
def negatedTwice (column : Nat) : Option Node :=
  some (.unary ⟨1, column⟩ "!" (some (.unary ⟨1, column + 1⟩ "!"
    (some (.logical ⟨1, column + 3⟩ .and (some (.identifier ⟨1, column + 3⟩ "a")) inheritedCallback)))))

/-- The test `(b && !!(a && super.connectedCallback)) && c`. -/
def groupedLeft : Option Node :=
  some (.logical ⟨1, 1⟩ .and
    (some (.logical ⟨1, 2⟩ .and (some (.identifier ⟨1, 2⟩ "b")) (negatedTwice 7)))
    (some (.identifier ⟨1, 45⟩ "c")))

/-- The test `b && (!!(a && super.connectedCallback) && c)`. -/
def groupedRight : Option Node :=
  some (.logical ⟨1, 1⟩ .and (some (.identifier ⟨1, 1⟩ "b"))
    (some (.logical ⟨1, 7⟩ .and (negatedTwice 7) (some (.identifier ⟨1, 44⟩ "c")))))

/-- Two groupings of three operands, of which the one in the middle holds a conjunction of its own. -/
theorem isGuard_eq_guards_grouped :
    (andOperands groupedLeft).map unplacedOption = (andOperands groupedRight).map unplacedOption ∧
      (andOperands groupedLeft).length = 3 ∧
      isGuard groupedLeft = isGuard groupedRight ∧ isGuard groupedRight = true := by
  obtain ⟨-, -, hsame⟩ := isGuard_eq_guards groupedLeft
  obtain ⟨-, hguards, -⟩ := isGuard_eq_guards groupedRight
  have hoperands :
      (andOperands groupedLeft).map unplacedOption = (andOperands groupedRight).map unplacedOption := by
    rw [andOperands_eq_leaves, andOperands_eq_leaves]
    rfl
  exact ⟨hoperands, by rw [andOperands_eq_leaves]; rfl, hsame _ hoperands, hguards.trans rfl⟩

end GuardSuperCall

end ElementLint
