import ElementLint.Lint.Load
import ElementLint.Proofs.Node.Conversion

/-!
# Chains of operators

A binary expression is turned together with the binary expressions that nest in it to the left, from the
innermost outwards. The plain way is `ofBinary`: turn the left operand like any other tree, then read the
operator, then turn the right operand. `convertPlainly` turns a whole tree in the plain way.

The main statements are that both ways give the same nodes and the same first error, whatever is missing
(`chain_eq_recursion`), and that a chain is one level deep, however long it is (`chain_is_one_level`). The
plain way goes one level down for each operator, so a limit stops it earlier and never later.
-/

namespace ElementLint

open Attempt

namespace Node

/-! ## The plain way -/

/-- Turn a binary expression by going on with its left operand. The operators `&&`, `||` and `??` give a logical
expression, and all others another one. -/
def ofBinary (v : View) (self : Tree → Converted Node) (t : Tree) : Converted Node := do
  let left ← match t.child? "left" with
    | some s => (self s).map some
    | none => .ok none
  let operator ← match t.child? "operator" with
    | some s => .ok s.type
    | none => .error .missingOperator
  let right ← match t.child? "right" with
    | some s => (self s).map some
    | none => .ok none
  return match operator with
    | "&&" => .logical (v.locate t.label) .and left right
    | "||" => .logical (v.locate t.label) .or left right
    | "??" => .logical (v.locate t.label) .coalesce left right
    | operator => .binary (v.locate t.label) operator left right

/-- Turn a tree, going at most `limit` levels down, one for each binary expression. -/
def ofTreePlainly (v : View) : (limit : Nat) → Tree → Converted Node
  | 0, _ => .error .tooDeep
  | limit + 1, t =>
    if t.form = .binary then ofBinary v (ofTreePlainly v limit) t
    else ofTreeWith v (ofTreePlainly v limit) t

/-- Turn a tree in the plain way, going as far down as it goes. -/
def convertPlainly (v : View) (t : Tree) : Converted Node := ofTreePlainly v t.size t

theorem binaryNode_eq (pos : Position) (operator : String) (left right : Option Node) :
    binaryNode pos operator left right =
      match operator with
      | "&&" => .logical pos .and left right
      | "||" => .logical pos .or left right
      | "??" => .logical pos .coalesce left right
      | operator => .binary pos operator left right := by
  rw [binaryNode]
  fun_cases LogicalOperator.ofSymbol? operator with
  | case1 | case2 | case3 => rfl
  | case4 =>
    dsimp only
    split
    · contradiction
    · contradiction
    · contradiction
    · rfl

theorem ofBinary_eq (v : View) (self : Tree → Converted Node) (t : Tree) :
    ofBinary v self t = ofField self t "left" >>= fun left => extendChain v self left t := by
  simp only [ofBinary, extendChain, binaryNode_eq, ofField, optional, operatorOf]
  cases t.child? "left" <;> cases t.child? "operator" <;> cases t.child? "right" <;> rfl

theorem ofBinary_rel {R : (α : Type) → Converted α → Converted α → Prop} (hR : Sequential R) (v : View)
    {self self' : Tree → Converted Node} {t : Tree}
    (h : ∀ s : Tree, s.size < t.size → R Node (self s) (self' s)) :
    R Node (ofBinary v self t) (ofBinary v self' t) := by
  rw [ofBinary_eq, ofBinary_eq]
  exact hR.bind (ofField_rel hR h "left") fun left => extendChain_rel hR v h left

theorem ofChain_convert (v : View) (t : Tree) :
    ofChain v (convert v) t = ofBinary v (convert v) t := by
  rw [ofChain_eq, chainLeft_convert, ofBinary_eq]

/-- The plain way gives the same as conversion without a limit. -/
theorem ofTreePlainly_eq_convert (v : View) {limit : Nat} {t : Tree} (h : t.size ≤ limit) :
    ofTreePlainly v limit t = convert v t := by
  induction limit generalizing t with
  | zero =>
    rw [Tree.size_eq] at h
    omega
  | succ limit ih =>
    have hbelow (s : Tree) (hs : s.size < t.size) : ofTreePlainly v limit s = convert v s :=
      ih (by omega)
    rw [ofTreePlainly]
    split
    · rename_i hform
      rw [convert_eq_ofChain v hform, ofChain_convert]
      exact ofBinary_rel sequential_eq v hbelow
    · rw [convert_eq]
      exact ofTreeWith_rel sequential_eq v hbelow

/-- With a limit the plain way stops for it, or it gives the same as the chain does. -/
theorem ofBinary_cut_ofChain (v : View) (limit : Nat) (t : Tree) :
    ofBinary v (ofTree v limit) t = .error .tooDeep ∨
      ofBinary v (ofTree v limit) t = ofChain v (ofTree v limit) t := by
  rw [ofBinary_eq, ofChain_eq, chainLeft_eq, ofField]
  apply sequential_cut.bind
  · apply optional_rel sequential_cut
    intro s _
    split
    · rename_i hform
      -- The left operand is a level further down in the plain way, and on the same level in the chain.
      cases limit with
      | zero => exact .inl rfl
      | succ limit =>
        rw [ofTree, ofTreeWith, hform]
        exact ofChain_rel sequential_cut v fun u _ => ofTree_eq_of_le v (Nat.le_succ limit) u
    · exact .inr rfl
  · exact fun left => .inr rfl

/-- A chain of operators comes out as if by recursion on the left operand: the same nodes, or the same first
error. So does a whole tree, and with a limit on the nesting a chain stops for the limit or comes out in the
same way; the recursion stops for it whenever the chain does. -/
theorem chain_eq_recursion (v : View) (t : Tree) :
    ofChain v (convert v) t = ofBinary v (convert v) t ∧
    convert v t = convertPlainly v t ∧
    ∀ limit,
      (ofChain v (ofTree v limit) t = .error .tooDeep ∨
        ofChain v (ofTree v limit) t = ofBinary v (convert v) t) ∧
      (ofBinary v (ofTree v limit) t = .error .tooDeep ∨
        ofBinary v (ofTree v limit) t = ofChain v (ofTree v limit) t) := by
  refine ⟨ofChain_convert v t, (ofTreePlainly_eq_convert v (Nat.le_refl _)).symm, ?_⟩
  intro limit
  refine ⟨?_, ofBinary_cut_ofChain v limit t⟩
  rw [← ofChain_convert]
  exact ofChain_rel sequential_cut v fun s _ => ofTree_eq_convert v limit s

/-! ## Nesting -/

/-- Binary expressions that nest to the left: the first operand, and the right operands from the innermost
expression outwards. -/
inductive LeftChain (first : Tree) : List Tree → Tree → Prop
  | operand : LeftChain first [] first
  | extend {rest : List Tree} {s t operator e : Tree} : LeftChain first rest s → t.form = .binary →
      t.child? "left" = some s → t.child? "operator" = some operator → t.child? "right" = some e →
        LeftChain first (rest ++ [e]) t

/-- The left operand of a chain is the first operand, or a chain itself. -/
theorem LeftChain.eq_or_binary {first t : Tree} {rest : List Tree} (h : LeftChain first rest t) :
    t = first ∨ t.form = .binary := by
  cases h with
  | operand => exact .inl rfl
  | extend _ hform _ _ _ => exact .inr hform

theorem exists_extendChain {v : View} {self : Tree → Converted Node} {t operator e : Tree} {n : Node}
    (hoperator : t.child? "operator" = some operator) (hright : t.child? "right" = some e)
    (he : self e = .ok n) (left : Option Node) : ∃ m, extendChain v self left t = .ok m := by
  have hop : operatorOf t = .ok operator.type := by rw [operatorOf, hoperator]
  have hfield : ofField self t "right" = .ok (some n) := by rw [ofField, hright, optional, he]; rfl
  exact ⟨_, by rw [extendChain, hop, ok_bind, hfield, ok_bind]; rfl⟩

/-- A chain goes one level further down than its operands. -/
theorem exists_ofTree_of_leftChain {v : View} {limit : Nat} {first t : Tree} {rest : List Tree}
    (h : LeftChain first rest t) (hoperands : ∀ e ∈ first :: rest, ∃ n, ofTree v limit e = .ok n) :
    ∃ n, ofTree v (limit + 1) t = .ok n := by
  induction h with
  | operand =>
    obtain ⟨n, hn⟩ := hoperands first List.mem_cons_self
    exact ⟨n, ofTree_mono (Nat.le_succ limit) hn⟩
  | @extend rest s t operator e hs hform hleft hoperator hright ih =>
    obtain ⟨hfirst, hrest⟩ := List.forall_mem_cons.1 hoperands
    obtain ⟨hinner, he⟩ := List.forall_mem_append.1 hrest
    obtain ⟨n, hn⟩ := he e List.mem_cons_self
    -- The chain below is turned on the level of `t`, for which the limit is the same.
    obtain ⟨left, hleftmost⟩ : ∃ m,
        (if s.form = .binary then ofChain v (ofTree v limit) s else ofTree v limit s) = .ok m := by
      split
      · rename_i hbinary
        obtain ⟨m, hm⟩ := ih (List.forall_mem_cons.2 ⟨hfirst, hinner⟩)
        rw [ofTree, ofTreeWith, hbinary] at hm
        exact ⟨m, hm⟩
      · rename_i hother
        rw [hs.eq_or_binary.resolve_right hother]
        exact hfirst
    obtain ⟨m, hm⟩ := exists_extendChain (v := v) hoperator hright hn (some left)
    refine ⟨m, ?_⟩
    rw [ofTree, ofTreeWith, hform]
    dsimp only
    rw [ofChain_eq, chainLeft_eq, hleft, optional, hleftmost]
    exact hm

theorem ofBytes_tooDeep_iff {reader : Reader} {bytes : List UInt8} {tree : Tree}
    (h : reader.grammar bytes = some tree) (path : Option Text) :
    Program.ofBytes reader path bytes = .error (.tooDeep (Program.sourceName path)) ↔
      ofTree (.ofSource (.ofBytes bytes)) reader.depth tree = .error .tooDeep := by
  rw [Program.ofBytes, h]
  dsimp only
  split
  · rename_i hdeep
    exact iff_of_true rfl hdeep
  · rename_i e hne he
    rw [he]
    exact iff_of_false nofun fun heq => hne (Except.error.inj heq)
  · rename_i hn
    rw [hn]
    exact iff_of_false nofun nofun

/-- A chain of operators of any length goes one level further down than its operands, and what is turned
within a limit is turned into the same node within every higher one. Loading a program fails for its depth
if the limit is exceeded, and only then, and the error says so. -/
theorem chain_is_one_level (v : View) :
    (∀ limit first rest t, LeftChain first rest t →
      (∀ e ∈ first :: rest, ∃ n, ofTree v limit e = .ok n) → ∃ n, ofTree v (limit + 1) t = .ok n) ∧
    (∀ limit limit' t n, limit ≤ limit' → ofTree v limit t = .ok n → ofTree v limit' t = .ok n) ∧
    ∀ (reader : Reader) path bytes tree, reader.grammar bytes = some tree →
      (Program.ofBytes reader path bytes = .error (.tooDeep (Program.sourceName path)) ↔
        ofTree (.ofSource (.ofBytes bytes)) reader.depth tree = .error .tooDeep) ∧
      (LoadError.tooDeep (Program.sourceName path)).message =
        "'" ++ Program.sourceName path ++ "' is nested too deeply to analyse." :=
  ⟨fun _ _ _ _ h hoperands => exists_ofTree_of_leftChain h hoperands, fun _ _ _ _ h hn => ofTree_mono h hn,
    fun _ path _ _ h => ⟨ofBytes_tooDeep_iff h path, rfl⟩⟩

/-- The tree of an identifier that is the right operand of an operator. -/
def summand : Tree := .namedNode "identifier" 0 1 (some "right") []

/-- The tree of a sum with some operators that nests to the left, as the left operand of one more. -/
def leftSum : Nat → Tree
  | 0 => .namedNode "identifier" 0 1 (some "left") []
  | k + 1 => .namedNode "binary_expression" 0 1 (some "left")
      [leftSum k, (Tree.token "+" 0 1).withField "operator", summand]

theorem leftChain_leftSum (k : Nat) : LeftChain (leftSum 0) (List.replicate k summand) (leftSum k) := by
  induction k with
  | zero => exact .operand
  | succ k ih =>
    have hleft : (leftSum (k + 1)).child? "left" = some (leftSum k) := by cases k <;> rfl
    have hoperator : (leftSum (k + 1)).child? "operator" =
        some ((Tree.token "+" 0 1).withField "operator") := by cases k <;> rfl
    have hright : (leftSum (k + 1)).child? "right" = some summand := by cases k <;> rfl
    rw [List.replicate_succ']
    exact .extend ih rfl hleft hoperator hright

/-- Every text is a sum of a thousand operators. -/
def sumReader : Reader where
  grammar _ := some (leftSum 1000)

/-- A sum of a thousand operators goes two levels down, and it is no program that is nested too deeply. -/
theorem chain_is_one_level_long :
    LeftChain (leftSum 0) (List.replicate 1000 summand) (leftSum 1000) ∧
      (∀ e ∈ leftSum 0 :: List.replicate 1000 summand,
        ∃ n, ofTree (.ofSource (.ofBytes [])) 1 e = .ok n) ∧
      (∃ n, ofTree (.ofSource (.ofBytes [])) 2 (leftSum 1000) = .ok n ∧
        ofTree (.ofSource (.ofBytes [])) maxDepth (leftSum 1000) = .ok n) ∧
      Program.ofBytes sumReader none [] ≠ .error (.tooDeep (Program.sourceName none)) := by
  have hchain := leftChain_leftSum 1000
  have hoperands : ∀ e ∈ leftSum 0 :: List.replicate 1000 summand,
      ∃ n, ofTree (.ofSource (.ofBytes [])) 1 e = .ok n := by
    intro e he
    rcases List.mem_cons.1 he with rfl | he
    · exact ⟨_, rfl⟩
    · rw [List.eq_of_mem_replicate he]
      exact ⟨_, rfl⟩
  obtain ⟨hlevel, hmono, hload⟩ := chain_is_one_level (.ofSource (.ofBytes []))
  obtain ⟨n, hn⟩ := hlevel 1 _ _ _ hchain hoperands
  have hmax := hmono 2 maxDepth _ n (by decide) hn
  refine ⟨hchain, hoperands, ⟨n, hn, hmax⟩, fun hdeep => ?_⟩
  rw [(hload sumReader none [] _ rfl).1, sumReader, hmax] at hdeep
  cases hdeep

end Node

end ElementLint
