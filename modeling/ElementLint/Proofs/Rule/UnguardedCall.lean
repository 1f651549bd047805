import Mathlib.Data.List.Perm.Basic
import ElementLint.Proofs.Engine.Run
import ElementLint.Proofs.Node.Address

/-!
# Which super calls are reported

`Exposed name n a c` says in terms of addresses which calls the rule is about: from the node `n` the
address `a` leads to the call `c` of the inherited method `name`, down through statements only, past
no guard and into no function. A call is reported if it is exposed in the body of a lifecycle callback
of the same name.

The rule finds exactly these calls, each once, whatever is nested in what. A statement belongs to the
nearest callback around it, because no path of `Exposed` goes through a method.
-/

namespace ElementLint

namespace GuardSuperCall

/-- A call of the inherited method with a name that is made whether or not the method is there. -/
def PlainSuperCall (name : Text) (c : Node) : Prop :=
  ∃ pos memberPos superPos namePos arguments,
    c = .call pos (some (.member memberPos (some (.super superPos))
      (some (.identifier namePos name)) false false)) arguments false

/-- The name of a construct whose code belongs to another function or class. -/
def IsFunctionType (type : String) : Prop :=
  type ∈ ["function_expression", "function_declaration", "generator_function",
    "generator_function_declaration", "arrow_function", "class", "class_declaration"]

/-- The address leads from the node to a call of the inherited method that no guard protects. -/
inductive Exposed (name : Text) : Node → Address → Node → Prop
  /-- The call is a statement of its own. -/
  | call {pos : Position} {c : Node} : PlainSuperCall name c → Exposed name (.exprStmt pos c) [0] c
  /-- The call is the right side of a conjunction, and the left side is no guard. -/
  | conjunct {pos andPos : Position} {left : Option Node} {c : Node} :
      isGuard left = false → PlainSuperCall name c →
      Exposed name (.exprStmt pos (.logical andPos .and left (some c))) [0, 1] c
  | block {pos : Position} {body : List Node} {i : Nat} {n : Node} {a : Address} {c : Node} :
      body[i]? = some n → Exposed name n a c → Exposed name (.block pos body) (i :: a) c
  /-- The branch of a conditional that a guard would protect. -/
  | consequent {pos : Position} {test alternate : Option Node} {n : Node} {a : Address} {c : Node} :
      isGuard test = false → Exposed name n a c →
      Exposed name (.ifStmt pos test (some n) alternate) (1 :: a) c
  /-- The other branch, which a guard does not protect. -/
  | alternate {pos : Position} {test consequent : Option Node} {n : Node} {a : Address} {c : Node} :
      Exposed name n a c → Exposed name (.ifStmt pos test consequent (some n)) (2 :: a) c
  /-- Loops, handlers, labels and all else that is neither a function nor a class. -/
  | other {pos : Position} {type : String} {body : List Node} {i : Nat} {n : Node} {a : Address}
      {c : Node} :
      ¬ IsFunctionType type → body[i]? = some n → Exposed name n a c →
      Exposed name (.other pos type body) (i :: a) c
  | tag {pos : Position} {n template : Node} {a : Address} {c : Node} :
      Exposed name n a c → Exposed name (.taggedTemplate pos (some n) template) (0 :: a) c
  | template {pos : Position} {tag : Option Node} {n : Node} {a : Address} {c : Node} :
      Exposed name n a c → Exposed name (.taggedTemplate pos tag n) (1 :: a) c

/-- A call that is exposed in the body of a lifecycle callback: the address of the callback, the
address of the call, and the call. -/
structure FoundCall where
  method : Address
  address : Address
  call : Node

/-- The name of a lifecycle callback. -/
def IsLifecycleName (name : Text) : Prop :=
  name = "connectedCallback" ∨ name = "disconnectedCallback" ∨ name = "adoptedCallback" ∨
    name = "attributeChangedCallback"

/-- The found call stands unguarded in a program. -/
def FoundCall.Unguarded (root : Node) (f : FoundCall) : Prop :=
  ∃ pos name params body below,
    root.at? f.method = some (.method pos (some name) params (some body)) ∧
      IsLifecycleName name ∧ f.address = f.method ++ 1 :: below ∧ Exposed name body below f.call

/-! ## The search finds what is exposed -/

theorem plainSuperCall_iff {name : Text} {c : Node} :
    PlainSuperCall name c ↔ isSuperCall name c = true ∧ isOptionalCall c = false := by
  constructor
  · rintro ⟨pos, memberPos, superPos, namePos, arguments, rfl⟩
    simp [isSuperCall, isOptionalCall]
  · rintro ⟨hcall, hoptional⟩
    unfold isSuperCall at hcall
    split at hcall
    · simp only [Bool.and_eq_true, Bool.not_eq_true', beq_iff_eq] at hcall
      simp only [isOptionalCall, Bool.or_eq_false_iff] at hoptional
      obtain ⟨rfl, rfl⟩ := hcall
      obtain ⟨rfl, rfl⟩ := hoptional
      exact ⟨_, _, _, _, _, rfl⟩
    · cases hcall

theorem at?_of_exposed {name : Text} {n c : Node} {a : Address} (h : Exposed name n a c) :
    n.at? a = some c := by
  induction h with
  | call hc => rfl
  | conjunct hleft hc => rfl
  | block hn _ ih => simp [Node.at?_cons, Node.slot?, Node.slots, hn, ih]
  | consequent _ _ ih => simpa [Node.at?_cons, Node.slot?, Node.slots] using ih
  | alternate _ ih => simpa [Node.at?_cons, Node.slot?, Node.slots] using ih
  | other _ hn _ ih => simp [Node.at?_cons, Node.slot?, Node.slots, hn, ih]
  | tag _ ih => simpa [Node.at?_cons, Node.slot?, Node.slots] using ih
  | template _ ih => simpa [Node.at?_cons, Node.slot?, Node.slots] using ih

theorem kind_of_exposed {name : Text} {n c : Node} {a : Address} (h : Exposed name n a c) :
    c.kind = .callExpression := by
  have hkind {c : Node} (hc : PlainSuperCall name c) : c.kind = .callExpression := by
    obtain ⟨_, _, _, _, _, rfl⟩ := hc
    rfl
  induction h with
  | call hc => exact hkind hc
  | conjunct _ hc => exact hkind hc
  | block _ _ ih | consequent _ _ ih | alternate _ ih | other _ _ _ ih | tag _ ih | template _ ih =>
    exact ih

theorem not_exposed_nil {name : Text} {n c : Node} : ¬ Exposed name n [] c := by
  intro h
  cases h

/-- Whether the search goes on in a slot of a statement. -/
def opens : Node → Nat → Bool
  | .block .., _ => true
  | .ifStmt _ test _ _, 1 => !isGuard test
  | .ifStmt .., 2 => true
  | .other _ type _, _ => !Node.functionTypes.contains type
  | .taggedTemplate .., _ => true
  | _, _ => false

def isExprStmt : Node → Bool
  | .exprStmt .. => true
  | _ => false

theorem contains_functionTypes_eq_false {type : String} :
    Node.functionTypes.contains type = false ↔ ¬ IsFunctionType type := by
  rw [← Bool.not_eq_true, List.contains_iff_mem]
  exact Iff.rfl

theorem exposed_cons_iff {name : Text} {n m c : Node} {i : Nat} {a : Address}
    (hn : isExprStmt n = false) (hm : n.slot? i = some m) :
    Exposed name n (i :: a) c ↔ opens n i = true ∧ Exposed name m a c := by
  rw [Node.slot?_eq_some_iff] at hm
  constructor
  · intro h
    cases h with
    | call | conjunct => cases hn
    | block hbody h =>
      simp only [Node.slots, List.getElem?_map, hbody, Option.map_some, Option.some.injEq] at hm
      exact ⟨rfl, hm ▸ h⟩
    | consequent htest h =>
      cases hm
      exact ⟨by simp [opens, htest], h⟩
    | alternate h =>
      cases hm
      exact ⟨rfl, h⟩
    | other htype hbody h =>
      simp only [Node.slots, List.getElem?_map, hbody, Option.map_some, Option.some.injEq] at hm
      exact ⟨by rw [opens, contains_functionTypes_eq_false.2 htype, Bool.not_false], hm ▸ h⟩
    | tag h =>
      cases hm
      exact ⟨rfl, h⟩
    | template h =>
      cases hm
      exact ⟨rfl, h⟩
  · rintro ⟨hopens, h⟩
    unfold opens at hopens
    split at hopens
    · exact .block (by simpa [Node.slots] using hm) h
    · cases hm
      exact .consequent (by simpa using hopens) h
    · cases hm
      exact .alternate h
    · rw [Bool.not_eq_true'] at hopens
      exact .other (contains_functionTypes_eq_false.1 hopens) (by simpa [Node.slots] using hm) h
    · rcases i with _ | _ | i
      · cases hm
        exact .tag h
      · cases hm
        exact .template h
      · cases hm
    · cases hopens

theorem unguardedInOption_eq (name : Text) (guarded : Bool) (n : Option Node) :
    unguardedInOption name guarded n = n.toList.flatMap (unguardedCalls name guarded) := by
  cases n with
  | none => rfl
  | some n => simp [unguardedInOption]

theorem unguardedInList_eq (name : Text) (guarded : Bool) (ns : List Node) :
    unguardedInList name guarded ns = ns.flatMap (unguardedCalls name guarded) := by
  induction ns with
  | nil => rfl
  | cons n ns ih => rw [unguardedInList, ih, List.flatMap_cons]

/-- Behind a guard nothing is found. -/
theorem unguardedCalls_true (name : Text) (n : Node) : unguardedCalls name true n = [] := by
  induction n using Node.inductionOn with
  | step n ih =>
    cases n with
    | exprStmt pos expr =>
      rw [unguardedCalls, statementCalls.eq_def]
      split
      · rfl
      · split
        · simp
        · rfl
    | block pos body =>
      rw [unguardedCalls, unguardedInList_eq, List.flatMap_eq_nil_iff]
      exact fun m hm => ih m (List.mem_map_of_mem hm)
    | ifStmt pos test consequent alternate =>
      rw [unguardedCalls, Bool.true_or, unguardedInOption_eq, unguardedInOption_eq,
        List.append_eq_nil_iff, List.flatMap_eq_nil_iff, List.flatMap_eq_nil_iff]
      constructor
      · intro m hm
        exact ih m (by simp [Node.slots, Option.mem_toList.1 hm])
      · intro m hm
        exact ih m (by simp [Node.slots, Option.mem_toList.1 hm])
    | taggedTemplate pos tag template =>
      rw [unguardedCalls, unguardedInOption_eq, List.append_eq_nil_iff, List.flatMap_eq_nil_iff]
      constructor
      · intro m hm
        exact ih m (by simp [Node.slots, Option.mem_toList.1 hm])
      · exact ih template (by simp [Node.slots])
    | other pos type body =>
      rw [unguardedCalls, unguardedInList_eq]
      split
      · rfl
      · rw [List.flatMap_eq_nil_iff]
        exact fun m hm => ih m (List.mem_map_of_mem hm)
    | program | method | call | member | identifier | super | literal | logical | binary | unary =>
      rfl

/-- The search goes through the slots that open, whatever the kind of the statement. -/
theorem unguardedCalls_eq_flatMap {n : Node} (name : Text) (hn : isExprStmt n = false) :
    unguardedCalls name false n =
      n.slots.zipIdx.flatMap fun s =>
        if opens n s.2 then s.1.toList.flatMap (unguardedCalls name false) else [] := by
  cases n with
  | exprStmt => cases hn
  | block pos body =>
    simp only [unguardedCalls, unguardedInList_eq, opens, ↓reduceIte, Node.slots]
    rw [Node.flatMap_zipIdx_slots, Node.filterMap_id_map_some]
  | ifStmt pos test consequent alternate =>
    rw [unguardedCalls, Bool.false_or, unguardedInOption_eq, unguardedInOption_eq]
    cases htest : isGuard test with
    | false => simp [Node.slots, opens, htest]
    | true => simp [Node.slots, opens, htest, unguardedCalls_true]
  | taggedTemplate pos tag template =>
    simp [unguardedCalls, unguardedInOption_eq, opens, Node.slots]
  | other pos type body =>
    rw [unguardedCalls, unguardedInList_eq]
    cases htype : Node.functionTypes.contains type with
    | true =>
      simp only [opens, htype, Bool.not_true, Bool.false_eq_true, ↓reduceIte]
      exact (List.flatMap_eq_nil_iff.2 fun _ _ => rfl).symm
    | false =>
      simp only [opens, htype, Bool.not_false, ↓reduceIte, Node.slots, Bool.false_eq_true]
      rw [Node.flatMap_zipIdx_slots, Node.filterMap_id_map_some]
  | program | method | call | member | identifier | super | literal | logical | binary | unary =>
    simp [unguardedCalls, opens]

open Classical in
/-- The exposed calls of a node with their addresses, in source order. -/
noncomputable def exposedCalls (name : Text) (n : Node) : List (Address × Node) :=
  n.occurrences.filter fun o => decide (Exposed name n o.1 o.2)

theorem mem_exposedCalls {name : Text} {n c : Node} {a : Address} :
    (a, c) ∈ exposedCalls name n ↔ Exposed name n a c := by
  simp only [exposedCalls, List.mem_filter, Node.mem_occurrences, decide_eq_true_eq]
  exact ⟨fun h => h.2, fun h => ⟨at?_of_exposed h, h⟩⟩

theorem pairwise_exposedCalls (name : Text) (n : Node) :
    (exposedCalls name n).Pairwise fun o o' => o.1 < o'.1 :=
  (Node.pairwise_occurrences n).sublist List.filter_sublist

/-- An expression statement has at most one exposed call, and the search finds it. -/
theorem statementCalls_of_exposed {name : Text} {pos : Position} {expr c : Node} {a : Address}
    (h : Exposed name (.exprStmt pos expr) a c) : statementCalls name false expr = [c] := by
  cases h with
  | call hc =>
    obtain ⟨hcall, hoptional⟩ := plainSuperCall_iff.1 hc
    simp [statementCalls.eq_def, hcall, hoptional]
  | conjunct hleft hc =>
    obtain ⟨hcall, hoptional⟩ := plainSuperCall_iff.1 hc
    simp [statementCalls.eq_def, isSuperCall.eq_2, hcall, hoptional, hleft]

theorem exposed_of_mem_statementCalls {name : Text} {pos : Position} {expr c : Node}
    (h : c ∈ statementCalls name false expr) : ∃ a, Exposed name (.exprStmt pos expr) a c := by
  rw [statementCalls.eq_def] at h
  split at h
  · rename_i hcall
    split at h
    · rename_i hoptional
      cases List.mem_singleton.1 h
      exact ⟨[0], .call (plainSuperCall_iff.2 ⟨hcall, by simpa using hoptional⟩)⟩
    · cases h
  · split at h
    · split at h
      · rename_i hall
        cases List.mem_singleton.1 h
        simp only [Bool.and_eq_true, Bool.not_eq_true', Bool.not_false, and_true] at hall
        obtain ⟨⟨hcall, hleft⟩, hoptional⟩ := hall
        exact ⟨[0, 1], .conjunct hleft (plainSuperCall_iff.2 ⟨hcall, hoptional⟩)⟩
      · cases h
    · cases h

theorem address_of_exposed_exprStmt {name : Text} {pos : Position} {expr c c' : Node}
    {a a' : Address} (h : Exposed name (.exprStmt pos expr) a c)
    (h' : Exposed name (.exprStmt pos expr) a' c') : a = a' := by
  cases h with
  | call hc =>
    cases h' with
    | call => rfl
    | conjunct =>
      obtain ⟨_, _, _, _, _, hshape⟩ := hc
      cases hshape
  | conjunct =>
    cases h' with
    | call hc =>
      obtain ⟨_, _, _, _, _, hshape⟩ := hc
      cases hshape
    | conjunct => rfl

theorem map_snd_exposedCalls_exprStmt (name : Text) (pos : Position) (expr : Node) :
    (exposedCalls name (.exprStmt pos expr)).map Prod.snd = statementCalls name false expr := by
  have hmem (o : Address × Node) (ho : o ∈ exposedCalls name (.exprStmt pos expr)) :
      Exposed name (.exprStmt pos expr) o.1 o.2 := mem_exposedCalls.1 ho
  have hsorted := pairwise_exposedCalls name (.exprStmt pos expr)
  cases hl : exposedCalls name (.exprStmt pos expr) with
  | nil =>
    symm
    rw [List.map_nil, List.eq_nil_iff_forall_not_mem]
    intro c hc
    obtain ⟨a, ha⟩ := exposed_of_mem_statementCalls hc
    have := mem_exposedCalls.2 ha
    rw [hl] at this
    cases this
  | cons o rest =>
    rw [hl] at hmem hsorted
    have ho := hmem o List.mem_cons_self
    cases rest with
    | nil => rw [statementCalls_of_exposed ho]; rfl
    | cons o' rest =>
      -- A second one would have the same address, but the addresses ascend.
      have ho' := hmem o' (List.mem_cons_of_mem _ List.mem_cons_self)
      have hlt := (List.pairwise_cons.1 hsorted).1 o' List.mem_cons_self
      rw [address_of_exposed_exprStmt ho ho'] at hlt
      exact absurd hlt (List.lt_irrefl _)

open Classical in
theorem map_snd_filter_occurrencesIn {name : Text} {n : Node} (hn : isExprStmt n = false)
    {s : Option Node × Nat} (hs : s ∈ n.slots.zipIdx) :
    ((Node.occurrencesIn s).filter fun o => decide (Exposed name n o.1 o.2)).map Prod.snd =
      if opens n s.2 then s.1.toList.flatMap fun m => (exposedCalls name m).map Prod.snd else [] := by
  obtain ⟨_ | m, i⟩ := s
  · simp [Node.occurrencesIn]
  · have hm : n.slot? i = some m :=
      Node.slot?_eq_some_iff.2 (List.mk_mem_zipIdx_iff_getElem?.1 hs)
    rw [Node.occurrencesIn, List.filter_map, List.map_map]
    cases hopens : opens n i with
    | false => simp [Function.comp_def, exposed_cons_iff hn hm, hopens]
    | true => simp [Function.comp_def, exposed_cons_iff hn hm, hopens, exposedCalls]

/-- The search finds the exposed calls, in source order. -/
theorem map_snd_exposedCalls (name : Text) (n : Node) :
    (exposedCalls name n).map Prod.snd = unguardedCalls name false n := by
  induction n using Node.inductionOn with
  | step n ih =>
    cases hn : isExprStmt n with
    | true =>
      cases n with
      | exprStmt pos expr => exact map_snd_exposedCalls_exprStmt name pos expr
      | _ => cases hn
    | false =>
      rw [unguardedCalls_eq_flatMap name hn, exposedCalls, Node.occurrences_eq, List.filter_cons,
        if_neg (by simpa using not_exposed_nil), List.filter_flatMap, List.map_flatMap]
      apply List.flatMap_congr
      intro s hs
      rw [map_snd_filter_occurrencesIn hn hs]
      congr 1
      apply List.flatMap_congr
      intro m hm
      have hslot : some m ∈ n.slots := by
        rw [← Option.mem_toList.1 hm]
        exact List.fst_mem_of_mem_zipIdx hs
      exact ih m hslot

/-! ## A call belongs to one callback -/

def isMethod : Node → Bool
  | .method .. => true
  | _ => false

theorem isMethod_of_plainSuperCall {name : Text} {c : Node} (h : PlainSuperCall name c) :
    isMethod c = false := by
  obtain ⟨_, _, _, _, _, rfl⟩ := h
  rfl

/-- The way to an exposed call leads through no method. -/
theorem isMethod_of_exposed {name : Text} {n c m : Node} {b d : Address}
    (h : Exposed name n (b ++ d) c) (hm : n.at? b = some m) : isMethod m = false := by
  induction b generalizing n with
  | nil =>
    cases hm
    cases h <;> rfl
  | cons i b ih =>
    obtain ⟨k, hk, hm⟩ := Option.bind_eq_some_iff.1 hm
    cases hn : isExprStmt n with
    | false => exact ih ((exposed_cons_iff hn hk).1 h).2 hm
    | true =>
      -- The statement's own addresses: its expression, and the right side of a conjunction.
      generalize ha : (i :: b) ++ d = a at h
      cases h with
      | call hc =>
        obtain ⟨rfl, hb⟩ := List.cons.inj ha
        obtain ⟨rfl, -⟩ := List.append_eq_nil_iff.1 hb
        cases hk
        cases hm
        exact isMethod_of_plainSuperCall hc
      | conjunct _ hc =>
        obtain ⟨rfl, hb⟩ := List.cons.inj ha
        cases hk
        rcases List.append_eq_cons_iff.1 hb with ⟨rfl, -⟩ | ⟨b', rfl, hb'⟩
        · cases hm
          rfl
        · obtain ⟨rfl, -⟩ := List.append_eq_nil_iff.1 hb'.symm
          cases hm
          exact isMethod_of_plainSuperCall hc
      | _ => cases hn

/-- Of two callbacks around an exposed call the outer one is not it. -/
theorem eq_nil_of_unguarded_of_append {root : Node} {f g : FoundCall} (hf : f.Unguarded root)
    (hg : g.Unguarded root) (hfg : f.address = g.address) {p : Address}
    (hp : g.method = f.method ++ p) : p = [] := by
  obtain ⟨pos, name, params, body, below, hmethod, -, haddress, hexposed⟩ := hf
  obtain ⟨pos', name', params', body', below', hmethod', -, haddress', -⟩ := hg
  rw [haddress, haddress', hp, List.append_assoc, List.append_cancel_left_eq] at hfg
  cases p with
  | nil => rfl
  | cons i p =>
    obtain ⟨rfl, hbelow⟩ := List.cons.inj hfg
    rw [hp, Node.at?_append, hmethod] at hmethod'
    have hinner : body.at? p = some (.method pos' (some name') params' (some body')) := hmethod'
    have hnot := isMethod_of_exposed (hbelow ▸ hexposed) hinner
    cases hnot

theorem method_eq_of_address_eq {root : Node} {f g : FoundCall} (hf : f.Unguarded root)
    (hg : g.Unguarded root) (hfg : f.address = g.address) : f.method = g.method := by
  obtain ⟨_, _, _, _, below, -, -, haddress, -⟩ := id hf
  obtain ⟨_, _, _, _, below', -, -, haddress', -⟩ := id hg
  have happend : f.method ++ 1 :: below = g.method ++ 1 :: below' := by
    rw [← haddress, ← haddress', hfg]
  rcases List.append_eq_append_iff.1 happend with ⟨p, hp, -⟩ | ⟨p, hp, -⟩
  · rw [hp, eq_nil_of_unguarded_of_append hf hg hfg hp, List.append_nil]
  · rw [hp, eq_nil_of_unguarded_of_append hg hf hfg.symm hp, List.append_nil]

/-! ## The rule reports what is found -/

/-- The calls found at an occurrence: none, unless it is a lifecycle callback with a body. -/
noncomputable def foundAt (o : Address × Node) : List FoundCall :=
  match o.2 with
  | .method _ (some name) _ (some body) =>
    if name ∈ lifecycleMethods then
      (exposedCalls name body).map fun e => ⟨o.1, o.1 ++ 1 :: e.1, e.2⟩
    else []
  | _ => []

theorem mem_lifecycleMethods {name : Text} : name ∈ lifecycleMethods ↔ IsLifecycleName name := by
  simp [lifecycleMethods, IsLifecycleName]

theorem mem_foundAt {f : FoundCall} {a : Address} {n : Node} :
    f ∈ foundAt (a, n) ↔ f.method = a ∧
      ∃ pos name params body below, n = .method pos (some name) params (some body) ∧
        IsLifecycleName name ∧ f.address = a ++ 1 :: below ∧ Exposed name body below f.call := by
  unfold foundAt
  split
  · rename_i pos name params body hn
    obtain rfl : n = _ := hn
    split
    · rename_i hname
      rw [List.mem_map]
      constructor
      · rintro ⟨⟨below, c⟩, he, rfl⟩
        exact ⟨rfl, pos, name, params, body, below, rfl, mem_lifecycleMethods.1 hname, rfl,
          mem_exposedCalls.1 he⟩
      · rintro ⟨rfl, _, _, _, _, below, heq, -, haddress, hexposed⟩
        cases heq
        refine ⟨(below, f.call), mem_exposedCalls.2 hexposed, ?_⟩
        rw [← haddress]
    · rename_i hname
      constructor
      · intro h
        cases h
      · rintro ⟨-, _, _, _, _, _, heq, hname', -⟩
        cases heq
        exact absurd (mem_lifecycleMethods.2 hname') hname
  · rename_i hn
    constructor
    · intro h
      cases h
    · rintro ⟨-, pos, name, params, body, _, rfl, -⟩
      exact absurd rfl (hn pos name params body)

def FoundCall.diagnostic (severity : Severity) (f : FoundCall) : Diagnostic where
  rule := .text "guard-super-call"
  messageId := "guardSuperCall"
  message := .text (
    "Super calls to lifecycle callbacks should be guarded in case the base class " ++
    "does not implement them")
  severity := severity
  position := f.call.pos

theorem found_eq (options : List Json) (severity : Severity) (o : Address × Node) :
    Entry.found ⟨rule, options, severity⟩ o.2 = (foundAt o).map (FoundCall.diagnostic severity) := by
  obtain ⟨a, n⟩ := o
  have hreports : Entry.reports ⟨rule, options, severity⟩ n = ((check n).toOption).getD [] := rfl
  rw [Entry.found, hreports, check.eq_def]
  split
  · rename_i pos name params body
    cases body with
    | none => simp [foundAt, unguardedInOption, Except.toOption]
    | some body =>
      simp only [foundAt, Except.toOption, Option.getD_some, List.elem_iff]
      split
      · rw [unguardedInOption, ← map_snd_exposedCalls, List.map_map, List.map_map, List.map_map]
        rfl
      · rfl
  · rename_i hn
    have hnone : foundAt (a, n) = [] := by
      unfold foundAt
      split
      · rename_i hm
        exact absurd hm (hn _ _ _ _)
      · rfl
    rw [hnone]
    rfl

/-- The calls found in a program: at each node in turn. -/
noncomputable def foundIn (root : Node) : List FoundCall := root.occurrences.flatMap foundAt

theorem mem_foundIn {root : Node} {f : FoundCall} : f ∈ foundIn root ↔ f.Unguarded root := by
  rw [foundIn, List.mem_flatMap]
  constructor
  · rintro ⟨⟨a, n⟩, ho, hf⟩
    obtain ⟨rfl, pos, name, params, body, below, rfl, h⟩ := mem_foundAt.1 hf
    exact ⟨pos, name, params, body, below, Node.mem_occurrences.1 ho, h⟩
  · rintro ⟨pos, name, params, body, below, hmethod, h⟩
    refine ⟨_, Node.mem_occurrences.2 hmethod, mem_foundAt.2 ?_⟩
    exact ⟨rfl, pos, name, params, body, below, rfl, h⟩

theorem pairwise_foundAt (o : Address × Node) :
    (foundAt o).Pairwise fun f g => f.address < g.address := by
  unfold foundAt
  split
  · split
    · rw [List.pairwise_map]
      apply (pairwise_exposedCalls _ _).imp
      intro e e' h
      exact List.append_left_lt (List.cons_lt_cons_iff.2 (.inr ⟨rfl, h⟩))
    · exact List.Pairwise.nil
  · exact List.Pairwise.nil

/-- Callbacks come one after the other, and the calls in one callback in source order. -/
theorem pairwise_foundIn (root : Node) :
    (foundIn root).Pairwise fun f g =>
      f.method < g.method ∨ (f.method = g.method ∧ f.address < g.address) := by
  rw [foundIn, List.pairwise_flatMap]
  constructor
  · rintro ⟨a, n⟩ -
    apply (pairwise_foundAt (a, n)).imp_of_mem
    intro f g hf hg h
    obtain ⟨rfl, -⟩ := mem_foundAt.1 hf
    exact .inr ⟨(mem_foundAt.1 hg).1.symm, h⟩
  · apply (Node.pairwise_occurrences root).imp
    rintro ⟨a, n⟩ ⟨a', n'⟩ h f hf g hg
    obtain ⟨rfl, -⟩ := mem_foundAt.1 hf
    obtain ⟨rfl, -⟩ := mem_foundAt.1 hg
    exact .inl h

theorem nodup_address_foundIn (root : Node) : ((foundIn root).map FoundCall.address).Nodup := by
  rw [List.Nodup, List.pairwise_map]
  apply (pairwise_foundIn root).imp_of_mem
  intro f g hf hg h heq
  have hmethod := method_eq_of_address_eq (mem_foundIn.1 hf) (mem_foundIn.1 hg) heq
  rcases h with h | ⟨-, h⟩
  · rw [hmethod] at h
    exact List.lt_irrefl _ h
  · rw [heq] at h
    exact List.lt_irrefl _ h

theorem at?_of_unguarded {root : Node} {f : FoundCall} (h : f.Unguarded root) :
    root.at? f.address = some f.call := by
  obtain ⟨pos, name, params, body, below, hmethod, -, haddress, hexposed⟩ := h
  rw [haddress, Node.at?_append, hmethod]
  exact at?_of_exposed (n := body) hexposed

/-- Run over a program, the rule reports the calls that stand unguarded in a lifecycle callback: each
of them once and at its own place, and nothing else. The reports are made callback by callback, and
within one callback in source order. -/
theorem run_eq_unguarded_calls (root : Node) (options : List Json) (severity : Severity)
    (hseverity : severity ≠ .off) :
    ∃ calls : List FoundCall,
      (∀ f, f ∈ calls ↔ f.Unguarded root) ∧
      (∀ f ∈ calls, root.at? f.address = some f.call ∧ f.call.kind = .callExpression) ∧
      (calls.map FoundCall.address).Nodup ∧
      (calls.Pairwise fun f g =>
        f.method < g.method ∨ (f.method = g.method ∧ f.address < g.address)) ∧
      Engine.run ⟨[⟨rule, options, severity⟩]⟩ ((root.walk 0).map Visit.node) =
        .ok ((calls.map (FoundCall.diagnostic severity)).mergeSort Diagnostic.le) := by
  refine ⟨foundIn root, fun f => mem_foundIn, ?_, nodup_address_foundIn root, pairwise_foundIn root, ?_⟩
  · intro f hf
    have hunguarded := mem_foundIn.1 hf
    obtain ⟨_, _, _, _, _, -, -, -, hexposed⟩ := id hunguarded
    exact ⟨at?_of_unguarded hunguarded, kind_of_exposed hexposed⟩
  · rw [Engine.run_singleton (steady rfl) hseverity, Node.map_node_walk, Node.preorder, foundIn,
      List.map_flatMap, List.flatMap_map]
    simp only [found_eq]

/-- A call of the inherited `connectedCallback` at a column of the first line. -/
def connectedCall (column : Nat) : Node :=
  .call ⟨1, column⟩ (some (.member ⟨1, column⟩ (some (.super ⟨1, column⟩))
    (some (.identifier ⟨1, column⟩ "connectedCallback")) false false)) [] false

/-- A `connectedCallback` with some statements. -/
def connectedMethod (body : List Node) : Node :=
  .method ⟨1, 1⟩ (some "connectedCallback") none (some (.block ⟨1, 1⟩ body))

/-- Two callbacks, the second in an object that the first one makes, each with an unguarded call. -/
theorem run_eq_unguarded_calls_nested :
    Severity.warn ≠ .off ∧
      let root := Node.program ⟨1, 1⟩ [connectedMethod [.exprStmt ⟨1, 2⟩ (connectedCall 2),
        .other ⟨1, 3⟩ "object" [connectedMethod [.exprStmt ⟨1, 4⟩ (connectedCall 4)]]]]
      ∃ calls : List FoundCall,
        (∀ f, f ∈ calls ↔ f.Unguarded root) ∧
        (∀ f ∈ calls, root.at? f.address = some f.call ∧ f.call.kind = .callExpression) ∧
        (calls.map FoundCall.address).Nodup ∧
        (calls.Pairwise fun f g =>
          f.method < g.method ∨ (f.method = g.method ∧ f.address < g.address)) ∧
        Engine.run ⟨[⟨rule, [], .warn⟩]⟩ ((root.walk 0).map Visit.node) =
          .ok ((calls.map (FoundCall.diagnostic .warn)).mergeSort Diagnostic.le) ∧
        ⟨[0], [0, 1, 0, 0], connectedCall 2⟩ ∈ calls ∧
        ⟨[0, 1, 1, 0], [0, 1, 1, 0, 1, 0, 0], connectedCall 4⟩ ∈ calls := by
  refine ⟨by decide, ?_⟩
  intro root
  obtain ⟨calls, hmem, hat, hnodup, hsorted, hrun⟩ := run_eq_unguarded_calls root [] .warn (by decide)
  have hname : IsLifecycleName "connectedCallback" := .inl rfl
  have hplain (column : Nat) : PlainSuperCall "connectedCallback" (connectedCall column) :=
    ⟨_, _, _, _, _, rfl⟩
  refine ⟨calls, hmem, hat, hnodup, hsorted, hrun, ?_, ?_⟩
  · exact (hmem _).2 ⟨_, _, _, _, [0, 0], rfl, hname, rfl, .block (i := 0) rfl (.call (hplain 2))⟩
  · exact (hmem _).2 ⟨_, _, _, _, [0, 0], rfl, hname, rfl, .block (i := 0) rfl (.call (hplain 4))⟩

end GuardSuperCall

end ElementLint
