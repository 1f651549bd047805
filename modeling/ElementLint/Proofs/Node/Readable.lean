import ElementLint.Proofs.Literal.EscapeSpelling
import ElementLint.Proofs.Literal.NumberSpelling
import ElementLint.Proofs.Node.Conversion
import ElementLint.Proofs.Tree.Operands

/-!
# Trees that can be turned into nodes

A tree can be turned into nodes if its root can be read and all its operands can be turned
(`succeeds_convert_iff_operands`), hence if every tree that conversion comes to can be read
(`succeeds_convert_iff`). What can go wrong at one root is little: a string or a number without a value, or
an operator that is not there. In a tree with the spellings and operators of the grammar only two kinds of
literals are left (`not_succeeds_convert_iff`).
-/

namespace ElementLint

open Attempt

namespace Tree

theorem forall_partsAt {P : Tree → Prop} {t : Tree} :
    (∀ o ∈ t.partsAt, P o.2) ↔ ∀ s ∈ t.parts, P s := by
  rw [← map_snd_partsAt, List.forall_mem_map]

theorem forall_inFieldAt {P : Tree → Prop} {t : Tree} {name : String}
    {select : Tree → List (Address × Tree)} :
    (∀ o ∈ t.inFieldAt name select, P o.2) ↔
      ∀ c, t.child? name = some c → ∀ o ∈ select c, P o.2 := by
  have hlist := List.forall_mem_map (f := Prod.snd) (l := t.inFieldAt name select) (P := P)
  rw [← hlist, map_snd_inFieldAt]
  cases t.child? name with
  | none => simp
  | some c =>
    rw [Option.toList_some, List.flatMap_singleton, List.forall_mem_map]
    simp

end Tree

namespace Node

/-- Whether nothing goes wrong at the root of a tree. -/
def Readable (v : View) (t : Tree) : Prop :=
  match t.form with
  | .string => Succeeds (stringValue v t)
  | .number => Succeeds (LiteralValue.ofNumber (v.excerpt t.label))
  | .binary | .unary => (t.child? "operator").isSome = true
  | .method => Succeeds (methodName v t)
  | _ => True

variable {v : View} {self : Tree → Converted Node} {t : Tree}

theorem succeeds_optional_iff {o : Option Tree} :
    Succeeds (optional self o) ↔ ∀ s, o = some s → Succeeds (self s) := by
  cases o with
  | none => exact iff_of_true (succeeds_ok none) nofun
  | some s =>
    rw [optional, succeeds_map_iff]
    constructor
    · intro h s' hs
      cases hs
      exact h
    · intro h
      exact h s rfl

theorem succeeds_ofField_iff {name : String} :
    Succeeds (ofField self t name) ↔ ∀ o ∈ t.inFieldAt name Tree.itself, Succeeds (self o.2) := by
  rw [ofField, succeeds_optional_iff, Tree.forall_inFieldAt (P := fun s => Succeeds (self s))]
  simp [Tree.itself]

theorem succeeds_mapM_parts_iff :
    Succeeds (t.parts.mapM self) ↔ ∀ o ∈ t.partsAt, Succeeds (self o.2) := by
  rw [succeeds_mapM_iff, Tree.forall_partsAt (P := fun s => Succeeds (self s))]

theorem succeeds_operatorOf_iff : Succeeds (operatorOf t) ↔ (t.child? "operator").isSome = true := by
  rw [operatorOf]
  cases t.child? "operator" with
  | none => exact iff_of_false (not_succeeds_error _) (by simp)
  | some op => exact iff_of_true (succeeds_ok _) rfl

theorem succeeds_alternateOf_iff :
    Succeeds (alternateOf self t) ↔
      ∀ o ∈ t.inFieldAt "alternative" fun clause => clause.partsAt.take 1, Succeeds (self o.2) := by
  rw [Tree.forall_inFieldAt (P := fun s => Succeeds (self s)), alternateOf]
  cases t.child? "alternative" with
  | none => exact iff_of_true (succeeds_ok none) (by simp)
  | some clause =>
    rw [succeeds_optional_iff, ← Tree.map_snd_partsAt clause]
    simp only [Option.some.injEq, forall_eq']
    cases clause.partsAt with
    | nil => simp
    | cons o rest => simp

/-- Two fields that are turned one after the other. -/
theorem succeeds_two_fields_iff {name name' : String} {f : Option Node → Option Node → Node} :
    Succeeds (do
      let x ← ofField self t name
      let y ← ofField self t name'
      return f x y : Converted Node) ↔
      ∀ o ∈ t.inFieldAt name Tree.itself ++ t.inFieldAt name' Tree.itself, Succeeds (self o.2) := by
  rw [List.forall_mem_append, ← succeeds_ofField_iff, ← succeeds_ofField_iff]
  exact succeeds_bind_iff fun x => succeeds_bind_ok_iff

/-- A level succeeds if the root can be read and what is handed on succeeds. -/
theorem succeeds_ofTreeWith_iff (hform : t.form ≠ .binary) :
    Succeeds (ofTreeWith v self t) ↔ Readable v t ∧ ∀ o ∈ t.operandsAt, Succeeds (self o.2) := by
  unfold ofTreeWith Readable Tree.operandsAt
  dsimp only
  cases h : t.form with
  | binary => exact absurd h hform
  | program | block | other =>
    rw [true_and, ← succeeds_mapM_parts_iff]
    exact succeeds_bind_ok_iff
  | expressionStatement =>
    dsimp only
    rw [true_and]
    have hparts := Tree.map_snd_partsAt t
    cases hat : t.partsAt with
    | nil =>
      rw [hat, List.map_nil] at hparts
      rw [← hparts]
      exact iff_of_true (succeeds_ok _) nofun
    | cons o rest =>
      rw [hat, List.map_cons] at hparts
      rw [← hparts, List.take_succ_cons, List.take_zero, List.forall_mem_singleton]
      exact succeeds_bind_ok_iff
  | parenthesized =>
    dsimp only
    rw [true_and, ← succeeds_mapM_parts_iff]
    split
    · rename_i expr hparts
      rw [hparts, succeeds_mapM_iff, List.forall_mem_singleton]
    · exact succeeds_bind_ok_iff
  | ifStatement =>
    rw [true_and, List.forall_mem_append, ← succeeds_alternateOf_iff, and_comm]
    apply succeeds_bind_iff
    intro alternate
    exact succeeds_two_fields_iff
  | call =>
    rw [true_and, List.forall_mem_append, ← succeeds_ofField_iff]
    apply succeeds_bind_iff
    intro callee
    rw [Tree.forall_inFieldAt (P := fun s => Succeeds (self s))]
    cases t.child? "arguments" with
    | none => exact iff_of_true (succeeds_ok _) nofun
    | some arguments =>
      simp only [Option.some.injEq, forall_eq']
      split
      · rw [← succeeds_mapM_parts_iff]
        exact succeeds_bind_ok_iff
      · rw [Tree.itself, List.forall_mem_singleton]
        exact succeeds_bind_ok_iff
  | member | subscript =>
    rw [true_and]
    exact succeeds_two_fields_iff
  | super | null | identifier => exact iff_of_true (succeeds_ok _) ⟨trivial, nofun⟩
  | bool b => cases b <;> exact iff_of_true (succeeds_ok _) ⟨trivial, nofun⟩
  | string =>
    rw [and_iff_left nofun]
    exact succeeds_bind_ok_iff
  | number =>
    rw [and_iff_left nofun, ← succeeds_mapError_iff (f := ConvertError.numeral)]
    exact succeeds_bind_ok_iff
  | unary =>
    rw [← succeeds_operatorOf_iff, ← succeeds_ofField_iff]
    exact succeeds_bind_iff fun operator => succeeds_bind_ok_iff
  | method =>
    apply succeeds_bind_iff
    intro name
    rw [List.forall_mem_append, ← succeeds_ofField_iff, ← succeeds_ofField_iff, and_comm]
    exact succeeds_bind_iff fun body => succeeds_bind_ok_iff

/-- A tree can be turned if its root can be read and its operands can be turned. -/
theorem succeeds_convert_iff_operands (v : View) (t : Tree) :
    Succeeds (convert v t) ↔ Readable v t ∧ ∀ o ∈ t.operandsAt, Succeeds (convert v o.2) := by
  by_cases hform : t.form = .binary
  · have hreadable : Readable v t ↔ Succeeds (operatorOf t) := by
      rw [Readable, hform, succeeds_operatorOf_iff]
    have hright (left : Option Node) : Succeeds (extendChain v (convert v) left t) ↔
        Succeeds (operatorOf t) ∧ Succeeds (ofField (convert v) t "right") :=
      succeeds_bind_iff fun operator => succeeds_bind_ok_iff
    rw [convert_binary v hform, succeeds_bind_iff hright, hreadable, Tree.operandsAt, hform]
    dsimp only
    rw [List.forall_mem_append, ← succeeds_ofField_iff, ← succeeds_ofField_iff]
    exact and_left_comm
  · rw [convert_eq]
    exact succeeds_ofTreeWith_iff hform

/-- A tree can be turned if every tree that conversion comes to can be read. -/
theorem succeeds_convert_iff (v : View) (t : Tree) :
    Succeeds (convert v t) ↔ ∀ u, t.Reaches u → Readable v u := by
  induction t using Tree.inductionOn with
  | step t ih =>
    rw [succeeds_convert_iff_operands]
    constructor
    · rintro ⟨hroot, hoperands⟩ u hu
      cases hu with
      | root => exact hroot
      | operand ho hu =>
        exact (ih _ (Tree.size_lt_of_mem_operandsAt ho)).1 (hoperands _ ho) u hu
    · intro hall
      refine ⟨hall t (.root t), fun o ho => ?_⟩
      rw [ih o.2 (Tree.size_lt_of_mem_operandsAt ho)]
      intro u hu
      exact hall u (.operand ho hu)

/-! ## In a tree of the grammar -/

/-- A tree with the operators and the spellings that the grammar has. -/
structure Obeys (v : View) (t : Tree) : Prop where
  operator : ∀ a s, t.at? a = some s → s.form = .binary ∨ s.form = .unary →
    (s.child? "operator").isSome = true
  number : ∀ a s, t.at? a = some s → s.form = .number → LiteralValue.Spelled (v.excerpt s.label)
  escape : ∀ a s, t.at? a = some s → s.type = "escape_sequence" →
    Escape.Spelled (v.excerpt s.label)

/-- A string literal with an escape sequence that names no code point. -/
def HasBeyond (v : View) (t : Tree) : Prop :=
  ∃ c ∈ t.namedChildren, c.type = "escape_sequence" ∧ Escape.Beyond (v.excerpt c.label)

/-- A literal without a value, or a method that such a literal is the name of. -/
def Meaningless (v : View) (t : Tree) : Prop :=
  match t.form with
  | .string => HasBeyond v t
  | .number => LiteralValue.Oversized (v.excerpt t.label)
  | .method => ∃ name, t.child? "name" = some name ∧ name.form = .string ∧ HasBeyond v name
  | _ => False

theorem at?_child {t s c : Tree} {a : Address} (h : t.at? a = some s) (hc : c ∈ s.children) :
    ∃ b, t.at? b = some c := by
  obtain ⟨i, hi⟩ := List.getElem?_of_mem hc
  refine ⟨a ++ [i], ?_⟩
  rw [Tree.at?_append, h, Option.bind_some, Tree.at?_cons, hi, Option.bind_some, Tree.at?_nil]

theorem succeeds_stringValue_iff {s : Tree} {a : Address} (h : Obeys v t) (hs : t.at? a = some s) :
    Succeeds (stringValue v s) ↔ ¬HasBeyond v s := by
  have hpiece : ∀ c ∈ s.namedChildren,
      (Succeeds (stringPiece v c) ↔
        ¬(c.type = "escape_sequence" ∧ Escape.Beyond (v.excerpt c.label))) := by
    intro c hc
    rw [stringPiece]
    split
    · rename_i htype
      obtain ⟨b, hb⟩ := at?_child hs (List.mem_of_mem_filter hc)
      rw [succeeds_mapError_iff, Escape.succeeds_decode_iff (h.escape b c hb htype)]
      exact not_congr (iff_and_self.2 fun _ => htype)
    · rename_i htype
      exact iff_of_true (succeeds_ok _) fun hand => htype hand.1
  rw [stringValue, succeeds_map_iff, succeeds_mapM_iff, HasBeyond, not_exists]
  constructor
  · rintro hall c ⟨hc, hbeyond⟩
    exact (hpiece c hc).1 (hall c hc) hbeyond
  · intro hnone c hc
    exact (hpiece c hc).2 fun hbeyond => hnone c ⟨hc, hbeyond⟩

/-- In a tree of the grammar nothing but a literal without a value can go wrong. -/
theorem readable_iff {u : Tree} {a : Address} (h : Obeys v t) (hu : t.at? a = some u) :
    Readable v u ↔ ¬Meaningless v u := by
  unfold Readable Meaningless
  cases hform : u.form with
  | string => exact succeeds_stringValue_iff h hu
  | number => exact LiteralValue.succeeds_ofNumber_iff (h.number a u hu hform)
  | binary => exact iff_of_true (h.operator a u hu (.inl hform)) not_false
  | unary => exact iff_of_true (h.operator a u hu (.inr hform)) not_false
  | method =>
    dsimp only
    rw [methodName]
    cases hname : u.child? "name" with
    | none => exact iff_of_true (succeeds_ok _) (by simp)
    | some name =>
      obtain ⟨b, hb⟩ := at?_child hu (Tree.mem_children_of_child? hname)
      have hstring := succeeds_stringValue_iff h hb
      simp only [Option.some.injEq, exists_eq_left']
      cases hform : name.form with
      | string =>
        dsimp only
        rw [succeeds_map_iff, hstring]
        simp
      | _ => exact iff_of_true (succeeds_ok _) (by simp)
  | _ => exact iff_of_true trivial not_false

/-- A tree of the grammar can be turned unless conversion comes to a literal without a value. -/
theorem not_succeeds_convert_iff (h : Obeys v t) :
    ¬Succeeds (convert v t) ↔ ∃ u, t.Reaches u ∧ Meaningless v u := by
  rw [succeeds_convert_iff]
  constructor
  · intro hnot
    by_contra hnone
    apply hnot
    intro u hu
    obtain ⟨a, ha⟩ := Tree.at?_of_reaches hu
    exact (readable_iff h ha).2 fun hbad => hnone ⟨u, hu, hbad⟩
  · rintro ⟨u, hu, hbad⟩ hall
    obtain ⟨a, ha⟩ := Tree.at?_of_reaches hu
    exact (readable_iff h ha).1 (hall u hu) hbad

end Node

end ElementLint
