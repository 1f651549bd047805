import ElementLint.Rule.Basic

/-!
# The rule on guarded super calls

A base class need not have every lifecycle callback, so a lifecycle callback should call the one of its
base class only after a test that it is there:

* `if (super.connectedCallback) { super.connectedCallback(); }`
* `super.connectedCallback && super.connectedCallback();`
* `super.connectedCallback?.();`

`isGuard` recognises such tests by their form, `unguardedCalls` finds the calls that no test protects,
and the rule reports them.
-/

namespace ElementLint

namespace GuardSuperCall

def lifecycleMethods : List Text :=
  ["connectedCallback", "disconnectedCallback", "adoptedCallback", "attributeChangedCallback"]

/-- Whether a node is an inherited member, named by an identifier or by a string in brackets. -/
def isSuperMember : Option Node → Bool
  | some (.member _ (some (.super _)) property computed _) =>
    match property with
    | some (.literal _ (.text _) _) => computed
    | some (.identifier _ _) => !computed
    | _ => false
  | _ => false

def isTypeofSuper : Option Node → Bool
  | some (.unary _ "typeof" argument) => isSuperMember argument
  | _ => false

def isLiteral (value : LiteralValue) : Option Node → Bool
  | some (.literal _ other _) => other == value
  | _ => false

/-- Whether a node is `undefined` or `null`. -/
def isUndefined : Option Node → Bool
  | some (.identifier _ name) => name == Text.ofString "undefined"
  | some (.literal _ value _) => value == .null
  | _ => false

def isEquality (operator : String) : Bool := operator == "===" || operator == "=="

def isInequality (operator : String) : Bool := operator == "!==" || operator == "!="

/-- Whether the first operand and the second, in this order, tell that an inherited member is a
function. -/
def tellsFunction (a b : Option Node) : Bool :=
  isTypeofSuper a && isLiteral (.text "function") b

/-- Whether the first operand and the second, in this order, tell apart an inherited member from
`undefined`. -/
def tellsDefined (a b : Option Node) : Bool :=
  (isTypeofSuper a && isLiteral (.text "undefined") b) || (isSuperMember a && isUndefined b)

/-- Whether a comparison holds only if an inherited member is there. -/
def comparesSuper (operator : String) (left right : Option Node) : Bool :=
  if isEquality operator then tellsFunction left right || tellsFunction right left
  else if isInequality operator then tellsDefined left right || tellsDefined right left
  else false

def conjuncts? : Option Node → Option (Option Node × Option Node)
  | some (.logical _ .and left right) => some (left, right)
  | _ => none

theorem sizeOption_of_conjuncts? {n l r : Option Node} (h : conjuncts? n = some (l, r)) :
    Node.sizeOption n = 1 + Node.sizeOption l + Node.sizeOption r := by
  unfold conjuncts? at h
  split at h
  · cases h
    simp [Node.sizeOption, Node.size]
  · cases h

/-- A number that grows with every operand that is still to be looked at. -/
def pendingWeight : List (Option Node) → Nat
  | [] => 0
  | n :: rest => 1 + 2 * Node.sizeOption n + pendingWeight rest

/-- The operands of the conjunctions among the nodes that are still to be looked at, the first of them
next. -/
def operandsOf (pending : List (Option Node)) : List (Option Node) :=
  match pending with
  | [] => []
  | n :: rest =>
    match _h : conjuncts? n with
    | some (left, right) => operandsOf (left :: right :: rest)
    | none => n :: operandsOf rest
termination_by pendingWeight pending
decreasing_by
  · have h' := sizeOption_of_conjuncts? _h
    simp only [pendingWeight]
    omega
  · simp only [pendingWeight]
    omega

/-- The operands of a chain of conjunctions, from left to right. -/
def andOperands (n : Option Node) : List (Option Node) := operandsOf [n]

theorem operandsOf_nil : operandsOf [] = [] := by
  rw [operandsOf]

theorem operandsOf_cons_and {n l r : Option Node} (h : conjuncts? n = some (l, r))
    (rest : List (Option Node)) : operandsOf (n :: rest) = operandsOf (l :: r :: rest) := by
  rw [operandsOf]
  split
  · rename_i l' r' h'
    rw [h] at h'
    cases h'
    rfl
  · rename_i h'
    rw [h] at h'
    cases h'

theorem operandsOf_cons_leaf {n : Option Node} (h : conjuncts? n = none)
    (rest : List (Option Node)) : operandsOf (n :: rest) = n :: operandsOf rest := by
  rw [operandsOf]
  split
  · rename_i h'
    rw [h] at h'
    cases h'
  · rfl

/-- An operand is no larger than one of the nodes that it comes from. -/
theorem sizeOption_le_of_mem_operandsOf {o : Option Node} {pending : List (Option Node)}
    (h : o ∈ operandsOf pending) : ∃ n ∈ pending, Node.sizeOption o ≤ Node.sizeOption n := by
  fun_induction operandsOf pending with
  | case1 => simp at h
  | case2 n rest left right hn ih =>
    obtain ⟨m, hm, hle⟩ := ih h
    have hs := sizeOption_of_conjuncts? hn
    simp only [List.mem_cons] at hm
    rcases hm with rfl | rfl | hm
    · exact ⟨n, by simp, by omega⟩
    · exact ⟨n, by simp, by omega⟩
    · exact ⟨m, by simp [hm], hle⟩
  | case3 n rest hn ih =>
    rcases List.mem_cons.1 h with rfl | h
    · exact ⟨o, by simp, Nat.le_refl _⟩
    · obtain ⟨m, hm, hle⟩ := ih h
      exact ⟨m, by simp [hm], hle⟩

theorem sizeOption_lt_of_mem_andOperands {o n l r : Option Node} (hn : conjuncts? n = some (l, r))
    (h : o ∈ andOperands n) : Node.sizeOption o < Node.sizeOption n := by
  rw [andOperands, operandsOf_cons_and hn] at h
  obtain ⟨m, hm, hle⟩ := sizeOption_le_of_mem_operandsOf h
  have hs := sizeOption_of_conjuncts? hn
  simp only [List.mem_cons, List.not_mem_nil, or_false] at hm
  rcases hm with rfl | rfl <;> omega

def doubleNegated? : Option Node → Option (Option Node)
  | some (.unary _ "!" (some (.unary _ "!" argument))) => some argument
  | _ => none

theorem sizeOption_of_doubleNegated? {n a : Option Node} (h : doubleNegated? n = some a) :
    Node.sizeOption n = 2 + Node.sizeOption a := by
  unfold doubleNegated? at h
  split at h
  · cases h
    simp only [Node.sizeOption, Node.size]
    omega
  · cases h

/-- Whether a node is a comparison that holds only if an inherited member is there. -/
def isSuperComparison : Option Node → Bool
  | some (.binary _ operator left right) => comparesSuper operator left right
  | _ => false

/-- Whether a test passes only if an inherited member is there: the member itself, a double negation of
such a test, a comparison of the member or of its type, or a conjunction with such an operand. -/
def isGuard (n : Option Node) : Bool :=
  isSuperMember n || isSuperComparison n ||
    match _h : doubleNegated? n, _h' : conjuncts? n with
    | some argument, _ => isGuard argument
    | none, some _ => (andOperands n).attach.any fun o => isGuard o.1
    | none, none => false
termination_by Node.sizeOption n
decreasing_by
  · have := sizeOption_of_doubleNegated? _h
    omega
  · exact sizeOption_lt_of_mem_andOperands _h' o.2

def isSuperCall (name : Text) : Node → Bool
  | .call _ (some (.member _ (some (.super _)) (some (.identifier _ other)) computed _)) _ _ =>
    !computed && other == name
  | _ => false

/-- Whether a call is made only if its function is there. -/
def isOptionalCall : Node → Bool
  | .call _ callee _ optional =>
    optional ||
      match callee with
      | some (.member _ _ _ _ optional) => optional
      | _ => false
  | _ => false

/-- The unprotected call of the inherited method in an expression statement: the expression itself, or
the right side of a conjunction whose left side is no guard. -/
def statementCalls (name : Text) (guarded : Bool) (expr : Node) : List Node :=
  if isSuperCall name expr then
    if !guarded && !isOptionalCall expr then [expr] else []
  else
    match expr with
    | .logical _ .and left (some call) =>
      if isSuperCall name call && !guarded && !isGuard left && !isOptionalCall call then [call]
      else []
    | _ => []

mutual

/-- The calls of the inherited method in the statements of a node that no guard protects, in source
order. `guarded` tells that the node itself stands behind a guard. -/
def unguardedCalls (name : Text) (guarded : Bool) : Node → List Node
  | .exprStmt _ expr => statementCalls name guarded expr
  | .block _ body => unguardedInList name guarded body
  | .ifStmt _ test consequent alternate =>
    unguardedInOption name (guarded || isGuard test) consequent ++
      unguardedInOption name guarded alternate
  | .taggedTemplate _ tag template =>
    unguardedInOption name guarded tag ++ unguardedCalls name guarded template
  | .other _ type body =>
    if Node.functionTypes.contains type then [] else unguardedInList name guarded body
  | _ => []

def unguardedInOption (name : Text) (guarded : Bool) : Option Node → List Node
  | none => []
  | some n => unguardedCalls name guarded n

def unguardedInList (name : Text) (guarded : Bool) : List Node → List Node
  | [] => []
  | n :: rest => unguardedCalls name guarded n ++ unguardedInList name guarded rest

end

def messageId : Text := "guardSuperCall"

/-- What the rule reports at a node: the unprotected calls in a lifecycle callback. -/
def check : Check
  | .method _ (some name) _ body =>
    .ok (if lifecycleMethods.elem name then
      (unguardedInOption name false body).map fun call => ⟨messageId, call.pos⟩ else [])
  | _ => .ok []

def rule : Rule where
  id := .text "guard-super-call"
  description :=
    "Requires a guard before calling a super method inside a Custom Element Lifecycle hook"
  url := some "docs/rules/guard-super-call.md"
  messages := [(messageId, .text (
    "Super calls to lifecycle callbacks should be guarded in case the base class " ++
    "does not implement them"))]
  check := fun _ => .ok check

end GuardSuperCall

end ElementLint
