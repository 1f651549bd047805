import ElementLint.Proofs.Attempt
import ElementLint.Proofs.Tree.Address

/-!
# Conversion without a limit

`convert` turns a tree with as many levels as the tree can have, so that the limit plays no part. The
main statements tie it to the program: `convert_eq` says that it does at the root what every level does
and goes on with itself, `ofTree_eq_convert` that a conversion with a limit either stops for the limit or
is the same, and `convert_binary` that a chain of operators, which is turned from the inside outwards,
could as well be turned by going on with the left operand.

One level hands trees below the root to a function and combines what comes back. All that is said of it
here goes through `ofTreeWith_rel`: whatever relation is kept by steps in sequence is kept by a level.
-/

namespace ElementLint

namespace Node

/-- A relation between attempts that steps in sequence keep. -/
structure Sequential (R : (α : Type) → Converted α → Converted α → Prop) : Prop where
  ok : ∀ {α : Type} (a : α), R α (.ok a) (.ok a)
  fault : ∀ {α : Type} (e : ConvertError), e ≠ .tooDeep → R α (.error e) (.error e)
  bind : ∀ {α β : Type} {x y : Converted α} {f g : α → Converted β},
    R α x y → (∀ a, R β (f a) (g a)) → R β (x >>= f) (y >>= g)

namespace Sequential

variable {R : (α : Type) → Converted α → Converted α → Prop} (hR : Sequential R)
include hR

theorem refl {α : Type} {x : Converted α} (hx : x ≠ .error .tooDeep) : R α x x := by
  cases x with
  | ok a => exact hR.ok a
  | error e => exact hR.fault e fun he => hx (congrArg _ he)

theorem map {α β : Type} {x y : Converted α} (f : α → β) (h : R α x y) : R β (x.map f) (y.map f) := by
  have hbind (z : Converted α) : z.map f = z >>= fun a => .ok (f a) := by
    cases z <;> rfl
  rw [hbind, hbind]
  exact hR.bind h fun a => hR.ok (f a)

theorem mapM {α β : Type} {f g : α → Converted β} {as : List α} (h : ∀ a ∈ as, R β (f a) (g a)) :
    R (List β) (as.mapM f) (as.mapM g) := by
  induction as with
  | nil => exact hR.ok []
  | cons a as ih =>
    rw [List.mapM_cons, List.mapM_cons]
    apply hR.bind (h a List.mem_cons_self)
    intro b
    apply hR.bind (ih fun a' ha' => h a' (List.mem_cons_of_mem _ ha'))
    intro bs
    exact hR.ok (b :: bs)

theorem foldlM {α β : Type} {f g : β → α → Converted β} {as : List α} {x y : Converted β}
    (hxy : R β x y) (h : ∀ b, ∀ a ∈ as, R β (f b a) (g b a)) :
    R β (x >>= fun b => as.foldlM f b) (y >>= fun b => as.foldlM g b) := by
  apply hR.bind hxy
  intro b
  induction as generalizing b with
  | nil => exact hR.ok b
  | cons a as ih =>
    rw [List.foldlM_cons, List.foldlM_cons]
    apply hR.bind (h b a List.mem_cons_self)
    intro b'
    exact ih (fun b a' ha' => h b a' (List.mem_cons_of_mem _ ha')) b'

end Sequential

theorem sequential_eq : Sequential fun _ x y => x = y where
  ok _ := rfl
  fault _ _ := rfl
  bind hxy hfg := by
    rw [hxy, funext hfg]

/-- The first attempt does not fail for the limit. -/
theorem sequential_shallow : Sequential fun _ x _ => x ≠ .error .tooDeep where
  ok _ h := nomatch h
  fault _ he h := he (Except.error.inj h)
  bind {_ _ x _ _ _} hx hf := by
    cases x with
    | error e =>
      intro h
      cases h
      exact hx rfl
    | ok a => exact hf a

/-- The first attempt fails for the limit, or it is the second one. -/
theorem sequential_cut : Sequential fun _ x y => x = .error .tooDeep ∨ x = y where
  ok _ := .inr rfl
  fault _ _ := .inr rfl
  bind {_ _ x _ _ _} hxy hf := by
    rcases hxy with rfl | rfl
    · exact .inl rfl
    · cases x with
      | error e => exact .inr rfl
      | ok a => exact hf a

/-! ## One level -/

theorem stringPiece_ne_tooDeep (v : View) (t : Tree) : stringPiece v t ≠ .error .tooDeep := by
  rw [stringPiece]
  split
  · cases Escape.decode (v.excerpt t.label) <;> exact nofun
  · exact nofun

theorem stringValue_ne_tooDeep (v : View) (t : Tree) : stringValue v t ≠ .error .tooDeep :=
  sequential_shallow.map List.flatten (x := t.namedChildren.mapM (stringPiece v)) (y := .ok [])
    (sequential_shallow.mapM (g := stringPiece v) fun s _ => stringPiece_ne_tooDeep v s)

theorem operatorOf_ne_tooDeep (t : Tree) : operatorOf t ≠ .error .tooDeep := by
  rw [operatorOf]
  split
  · exact nofun
  · exact nofun

theorem methodName_ne_tooDeep (v : View) (t : Tree) : methodName v t ≠ .error .tooDeep := by
  rw [methodName]
  split
  · exact nofun
  · split
    · exact nofun
    · exact sequential_shallow.map some (y := .ok []) (stringValue_ne_tooDeep v _)
    · exact nofun

/-- The left operand of a chain, turned from the inside outwards. -/
def chainLeft (v : View) (self : Tree → Converted Node) (t : Tree) : Converted (Option Node) :=
  optional self t.leftChain.2 >>= fun innermost =>
    t.leftChain.1.reverse.foldlM (fun left s => (extendChain v self left s).map some) innermost

theorem ofChain_eq (v : View) (self : Tree → Converted Node) (t : Tree) :
    ofChain v self t = chainLeft v self t >>= fun left => extendChain v self left t := by
  rw [chainLeft, bind_assoc]
  rfl

section Level

variable {R : (α : Type) → Converted α → Converted α → Prop} (hR : Sequential R) (v : View)
  {self self' : Tree → Converted Node} {t : Tree}
include hR

theorem optional_rel {o : Option Tree} (h : ∀ s, o = some s → R Node (self s) (self' s)) :
    R (Option Node) (optional self o) (optional self' o) := by
  cases o with
  | none => exact hR.ok none
  | some s => exact hR.map some (h s rfl)

variable (h : ∀ s : Tree, s.size < t.size → R Node (self s) (self' s))
include h

theorem ofField_rel (name : String) : R (Option Node) (ofField self t name) (ofField self' t name) :=
  optional_rel hR fun s hs => h s (Tree.size_lt_of_child? hs)

theorem mapM_parts_rel : R (List Node) (t.parts.mapM self) (t.parts.mapM self') :=
  hR.mapM fun s hs => h s (Tree.size_lt_of_mem_parts hs)

theorem extendChain_rel (left : Option Node) :
    R Node (extendChain v self left t) (extendChain v self' left t) := by
  apply hR.bind (hR.refl (operatorOf_ne_tooDeep t))
  intro operator
  apply hR.bind (ofField_rel hR h "right")
  intro right
  exact hR.ok _

theorem ofChain_rel : R Node (ofChain v self t) (ofChain v self' t) := by
  obtain ⟨hinner, hleftmost⟩ := t.size_lt_of_leftChain
  rw [ofChain_eq, ofChain_eq]
  apply hR.bind
  · apply hR.foldlM (optional_rel hR fun s hs => h s (hleftmost s hs))
    intro left s hs
    have hlt := hinner s (List.mem_reverse.1 hs)
    exact hR.map some (extendChain_rel hR v (fun u hu => h u (Nat.lt_trans hu hlt)) left)
  · intro left
    exact extendChain_rel hR v h left

theorem alternateOf_rel : R (Option Node) (alternateOf self t) (alternateOf self' t) := by
  rw [alternateOf, alternateOf]
  split
  · exact hR.ok none
  · rename_i clause hclause
    apply optional_rel hR
    intro s hs
    have hpart := Tree.size_lt_of_mem_parts (List.mem_of_head? hs)
    exact h s (Nat.lt_trans hpart (Tree.size_lt_of_child? hclause))

/-- A level keeps what steps in sequence keep, as far as the trees below the root do. -/
theorem ofTreeWith_rel : R Node (ofTreeWith v self t) (ofTreeWith v self' t) := by
  unfold ofTreeWith
  dsimp only
  split
  · exact hR.bind (mapM_parts_rel hR h) fun _ => hR.ok _
  · exact hR.bind (mapM_parts_rel hR h) fun _ => hR.ok _
  · split
    · exact hR.ok _
    · rename_i expr rest hparts
      have hexpr : expr ∈ t.parts := hparts ▸ List.mem_cons_self
      exact hR.bind (h expr (Tree.size_lt_of_mem_parts hexpr)) fun _ => hR.ok _
  · split
    · rename_i expr hparts
      have hexpr : expr ∈ t.parts := hparts ▸ List.mem_cons_self
      exact h expr (Tree.size_lt_of_mem_parts hexpr)
    · exact hR.bind (mapM_parts_rel hR h) fun _ => hR.ok _
  · apply hR.bind (alternateOf_rel hR h)
    intro alternate
    apply hR.bind (ofField_rel hR h "condition")
    intro test
    exact hR.bind (ofField_rel hR h "consequence") fun _ => hR.ok _
  · apply hR.bind (ofField_rel hR h "function")
    intro callee
    split
    · exact hR.ok _
    · rename_i arguments harguments
      have hlt := Tree.size_lt_of_child? harguments
      split
      · exact hR.bind (mapM_parts_rel hR fun s hs => h s (Nat.lt_trans hs hlt)) fun _ => hR.ok _
      · exact hR.bind (h arguments hlt) fun _ => hR.ok _
  · apply hR.bind (ofField_rel hR h "object")
    intro object
    exact hR.bind (ofField_rel hR h "property") fun _ => hR.ok _
  · apply hR.bind (ofField_rel hR h "object")
    intro object
    exact hR.bind (ofField_rel hR h "index") fun _ => hR.ok _
  · exact hR.ok _
  · exact hR.bind (hR.refl (stringValue_ne_tooDeep v t)) fun _ => hR.ok _
  · apply hR.bind (hR.refl ?_) fun _ => hR.ok _
    cases LiteralValue.ofNumber (v.excerpt t.label) <;> exact nofun
  · exact hR.ok _
  · exact hR.ok _
  · exact hR.ok _
  · exact ofChain_rel hR v h
  · apply hR.bind (hR.refl (operatorOf_ne_tooDeep t))
    intro operator
    exact hR.bind (ofField_rel hR h "argument") fun _ => hR.ok _
  · apply hR.bind (hR.refl (methodName_ne_tooDeep v t))
    intro name
    apply hR.bind (ofField_rel hR h "body")
    intro body
    exact hR.bind (ofField_rel hR h "parameters") fun _ => hR.ok _
  · exact hR.ok _
  · exact hR.bind (mapM_parts_rel hR h) fun _ => hR.ok _

end Level

/-! ## All levels -/

/-- Turn a tree, going as far down as it goes. -/
def convert (v : View) (t : Tree) : Converted Node := ofTree v t.size t

/-- A limit that is no less than the size of a tree plays no part. -/
theorem ofTree_eq_convert_of_le (v : View) {limit : Nat} {t : Tree} (h : t.size ≤ limit) :
    ofTree v limit t = convert v t := by
  induction t using Tree.inductionOn generalizing limit with
  | step t ih =>
    obtain ⟨k, hk⟩ : ∃ k, t.size = k + 1 := ⟨t.size - 1, by rw [Tree.size_eq]; omega⟩
    obtain ⟨limit, rfl⟩ : ∃ l, limit = l + 1 := ⟨limit - 1, by omega⟩
    rw [convert, hk, ofTree, ofTree]
    apply ofTreeWith_rel sequential_eq v
    intro s hs
    rw [ih s hs (by omega), ih s hs (by omega)]

/-- A tree is turned by one level at its root and in the same way below. -/
theorem convert_eq (v : View) (t : Tree) : convert v t = ofTreeWith v (convert v) t := by
  rw [← ofTree_eq_convert_of_le v (Nat.le_succ t.size), ofTree]
  apply ofTreeWith_rel sequential_eq v
  intro s hs
  exact ofTree_eq_convert_of_le v (Nat.le_of_lt hs)

/-- A conversion with a limit stops for the limit, or a higher limit makes no difference. -/
theorem ofTree_eq_of_le (v : View) {limit limit' : Nat} (h : limit ≤ limit') (t : Tree) :
    ofTree v limit t = .error .tooDeep ∨ ofTree v limit t = ofTree v limit' t := by
  induction limit generalizing limit' t with
  | zero => exact .inl rfl
  | succ limit ih =>
    obtain ⟨l, rfl⟩ : ∃ l, limit' = l + 1 := ⟨limit' - 1, by omega⟩
    rw [ofTree, ofTree]
    exact ofTreeWith_rel sequential_cut v fun s _ => ih (Nat.le_of_succ_le_succ h) s

theorem ofTree_mono {v : View} {limit limit' : Nat} (h : limit ≤ limit') {t : Tree} {n : Node}
    (hn : ofTree v limit t = .ok n) : ofTree v limit' t = .ok n := by
  rcases ofTree_eq_of_le v h t with hdeep | hsame
  · rw [hdeep] at hn
    cases hn
  · rw [← hsame, hn]

/-- A conversion with a limit stops for the limit, or the limit plays no part. -/
theorem ofTree_eq_convert (v : View) (limit : Nat) (t : Tree) :
    ofTree v limit t = .error .tooDeep ∨ ofTree v limit t = convert v t := by
  rw [← ofTree_eq_convert_of_le v (Nat.le_max_right limit t.size)]
  exact ofTree_eq_of_le v (Nat.le_max_left limit t.size) t

theorem convert_of_ofTree {v : View} {limit : Nat} {t : Tree} {n : Node}
    (h : ofTree v limit t = .ok n) : convert v t = .ok n := by
  rw [← ofTree_eq_convert_of_le v (Nat.le_max_right limit t.size)]
  exact ofTree_mono (Nat.le_max_left limit t.size) h

theorem convert_ne_tooDeep (v : View) (t : Tree) : convert v t ≠ .error .tooDeep := by
  induction t using Tree.inductionOn with
  | step t ih =>
    rw [convert_eq]
    exact @ofTreeWith_rel _ sequential_shallow v (convert v) (convert v) t ih

/-- The left operand of a chain is a chain itself, or it is handed on. -/
theorem chainLeft_eq (v : View) (self : Tree → Converted Node) (t : Tree) :
    chainLeft v self t =
      optional (fun s => if s.form = .binary then ofChain v self s else self s) (t.child? "left") := by
  rw [chainLeft, Tree.leftChain_eq]
  cases t.child? "left" with
  | none => rfl
  | some s =>
    dsimp only
    by_cases hform : s.form = .binary
    · -- The rest of the chain is the chain of `s`, and `s` itself is turned last.
      rw [if_pos hform, optional, if_pos hform, ofChain_eq, chainLeft, List.reverse_cons,
        Attempt.map_bind, bind_assoc]
      simp only [List.foldlM_append, List.foldlM_cons, List.foldlM_nil, bind_pure]
    · rw [if_neg hform, optional, optional, if_neg hform]
      exact bind_pure _

/-- What conversion without a limit does with a binary expression. -/
theorem convert_eq_ofChain (v : View) {t : Tree} (h : t.form = .binary) :
    convert v t = ofChain v (convert v) t := by
  rw [convert_eq, ofTreeWith, h]

/-- The left operand of a chain comes out as if it had been turned by itself. -/
theorem chainLeft_convert (v : View) (t : Tree) :
    chainLeft v (convert v) t = ofField (convert v) t "left" := by
  have hself (s : Tree) : (if s.form = .binary then ofChain v (convert v) s else convert v s) =
      convert v s := by
    split
    · rename_i hform
      exact (convert_eq_ofChain v hform).symm
    · rfl
  rw [chainLeft_eq, ofField, funext hself]

/-- A chain of operators is turned as if by going on with its left operand. -/
theorem convert_binary (v : View) {t : Tree} (h : t.form = .binary) :
    convert v t = ofField (convert v) t "left" >>= fun left => extendChain v (convert v) left t := by
  rw [← chainLeft_convert, ← ofChain_eq, convert_eq_ofChain v h]

end Node

end ElementLint
