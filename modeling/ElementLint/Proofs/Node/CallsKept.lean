import ElementLint.Proofs.Node.Origins
import ElementLint.Proofs.Node.Readable

/-!
# Calls that conversion keeps

In a tree with the shapes of the grammar every node that is left out of the operands holds no call, with
one exception: the name of a method is not turned, nor are its decorators, so a call in a computed name or
in a decorator is lost. The main statement, `walk_visits_calls_outside_method_heads`, says that there is no
other way to lose a call: the calls that the walk visits come from the calls outside the names and decorators
of methods, one from each.
-/

namespace ElementLint

open Attempt

namespace Tree

/-! ## Shapes of the grammar -/

/-- A tree that holds no call: it has no children and is no call itself. -/
def IsLeaf (t : Tree) : Prop := t.children = [] ∧ t.form ≠ .call

instance (t : Tree) : Decidable t.IsLeaf := inferInstanceAs (Decidable (_ ∧ _))

/-- Every child is a part or holds no call. -/
def HasParts (t : Tree) : Prop :=
  ∀ c ∈ t.children, (c.label.named = true ∧ c.isComment = false) ∨ c.IsLeaf

instance (t : Tree) : Decidable t.HasParts := inferInstanceAs (Decidable (∀ c ∈ _, _))

/-- Every child has one of some field names or holds no call. No field name stands twice but those in the
second list. -/
def HasFields (names : List String) (t : Tree) (repeated : List String := []) : Prop :=
  (∀ c ∈ t.children, c.IsLeaf ∨ ∃ name ∈ names ++ repeated, c.inField name = true) ∧
    ∀ name ∈ names, (t.children.filter (inField name)).length ≤ 1

instance (names repeated : List String) (t : Tree) : Decidable (t.HasFields names repeated) :=
  inferInstanceAs (Decidable (_ ∧ _))

/-- The shape that the grammar gives a tree with a form at its root. -/
def HasShapeOf (t : Tree) : Form → Prop
  | .program | .block | .parenthesized | .other => t.HasParts
  | .expressionStatement => t.HasParts ∧ t.parts.length ≤ 1
  | .ifStatement =>
    t.HasFields ["condition", "consequence", "alternative"] ∧
      ∀ clause ∈ t.child? "alternative", clause.form = .other ∧ clause.parts.length ≤ 1
  | .call => t.HasFields ["function", "arguments"] ∧ (t.child? "arguments").isSome = true
  | .member => t.HasFields ["object", "property"]
  | .subscript => t.HasFields ["object", "index"]
  | .binary => t.HasFields ["left", "right"]
  | .unary => t.HasFields ["argument"]
  | .method =>
    t.HasFields ["name", "parameters", "body"] ["decorator"] ∧
      ∀ body ∈ t.child? "body", body.form = .block
  | .super | .string | .number | .bool _ | .null | .identifier => ∀ c ∈ t.children, c.IsLeaf

instance (t : Tree) : (form : Form) → Decidable (t.HasShapeOf form)
  | .program | .block | .parenthesized | .other => inferInstanceAs (Decidable t.HasParts)
  | .expressionStatement | .ifStatement | .call | .method => inferInstanceAs (Decidable (_ ∧ _))
  | .member | .subscript | .binary | .unary => inferInstanceAs (Decidable (t.HasFields _))
  | .super | .string | .number | .bool _ | .null | .identifier =>
    inferInstanceAs (Decidable (∀ c ∈ t.children, c.IsLeaf))

/-- The root of a tree has the shape of its form. -/
def WellShaped (t : Tree) : Prop := t.HasShapeOf t.form

instance (t : Tree) : Decidable t.WellShaped := inferInstanceAs (Decidable (t.HasShapeOf t.form))

def Shaped (t : Tree) : Prop := ∀ a s, t.at? a = some s → s.WellShaped

/-- A call whose arguments are a list. -/
def IsPlainCall (t : Tree) : Prop :=
  t.form = .call ∧ ∃ c, t.child? "arguments" = some c ∧ c.type = "arguments"

/-- A child of a method that is its name or one of its decorators. -/
def HeadsMethod (t c : Tree) : Prop :=
  t.form = .method ∧ ∃ name ∈ ["name", "decorator"], c.inField name = true

instance (t c : Tree) : Decidable (t.HeadsMethod c) := inferInstanceAs (Decidable (_ ∧ _))

/-- An address that leads into the name or a decorator of a method. -/
def InMethodHead : Tree → Address → Prop
  | _, [] => False
  | t, i :: a =>
    match t.children[i]? with
    | none => False
    | some c => t.HeadsMethod c ∨ InMethodHead c a

theorem inMethodHead_cons {t c : Tree} {i : Nat} (hc : t.children[i]? = some c) (a : Address) :
    t.InMethodHead (i :: a) ↔ t.HeadsMethod c ∨ c.InMethodHead a := by
  rw [InMethodHead, hc]

instance decidableInMethodHead : (t : Tree) → (a : Address) → Decidable (t.InMethodHead a)
  | _, [] => inferInstanceAs (Decidable False)
  | t, i :: a =>
    match h : t.children[i]? with
    | none => isFalse (by rw [InMethodHead, h]; exact id)
    | some c =>
      have := decidableInMethodHead c a
      decidable_of_iff _ (inMethodHead_cons h a).symm

theorem Shaped.child {t c : Tree} {i : Nat} (h : t.Shaped) (hc : t.children[i]? = some c) :
    c.Shaped := by
  intro a s hs
  exact h (i :: a) s (by rw [at?_cons, hc, Option.bind_some, hs])

theorem Shaped.at {t u : Tree} {b : Address} (h : t.Shaped) (hu : t.at? b = some u) : u.Shaped := by
  intro a s hs
  exact h (b ++ a) s (by rw [at?_append, hu, Option.bind_some, hs])

theorem isPlainCall_iff {t : Tree} (h : t.WellShaped) : t.IsPlainCall ↔ t.IsCall := by
  rw [IsPlainCall, IsCall]
  apply and_congr_right
  intro hform
  rw [WellShaped, hform] at h
  obtain ⟨c, hc⟩ := Option.isSome_iff_exists.1 h.2
  rw [hc]
  simp

theorem not_isLeaf_of_at? {t s : Tree} {a : Address} (hs : t.at? a = some s) (hcall : s.form = .call) :
    ¬t.IsLeaf := by
  rintro ⟨hchildren, hform⟩
  cases a with
  | nil =>
    cases hs
    exact hform hcall
  | cons i a =>
    rw [at?_cons, hchildren] at hs
    cases hs

/-! ## What the operands cover -/

theorem HasParts.mem_partsAt {t c : Tree} {i : Nat} (h : t.HasParts) (hc : t.children[i]? = some c)
    (hleaf : ¬c.IsLeaf) : ([i], c) ∈ t.partsAt :=
  Tree.mem_partsAt.2 ⟨i, rfl, hc, (h c (List.mem_of_getElem? hc)).resolve_right hleaf⟩

theorem take_partsAt {t : Tree} (h : t.parts.length ≤ 1) : t.partsAt.take 1 = t.partsAt := by
  rw [← map_snd_partsAt, List.length_map] at h
  exact List.take_of_length_le h

/-- A field name that stands once leads to the child that has it. -/
theorem find?_zipIdx_of_single {t c : Tree} {i : Nat} {name : String}
    (hsingle : (t.children.filter (inField name)).length ≤ 1) (hc : t.children[i]? = some c)
    (hname : c.inField name = true) :
    t.children.zipIdx.find? (fun c => c.1.inField name) = some (c, i) := by
  have hmem : (c, i) ∈ t.children.zipIdx.filter fun c => c.1.inField name :=
    List.mem_filter.2 ⟨List.mem_zipIdx_iff_getElem?.2 hc, hname⟩
  have hmap : (t.children.zipIdx.filter fun c => c.1.inField name).map Prod.fst =
      t.children.filter (inField name) := by
    have hzip : t.children.zipIdx.map Prod.fst = t.children := List.zipIdx_map_fst 0 _
    rw [← congrArg (List.filter _) hzip, List.filter_map]
    rfl
  rw [← hmap, List.length_map] at hsingle
  rw [← List.head?_filter]
  cases hlist : t.children.zipIdx.filter fun c => c.1.inField name with
  | nil =>
    rw [hlist] at hmem
    cases hmem
  | cons d rest =>
    rw [hlist] at hmem hsingle
    have hrest : rest = [] := List.eq_nil_of_length_eq_zero (by simpa using hsingle)
    rw [hrest, List.mem_singleton] at hmem
    rw [hmem, List.head?_cons]

theorem child?_of_single {t c : Tree} {i : Nat} {name : String}
    (hsingle : (t.children.filter (inField name)).length ≤ 1) (hc : t.children[i]? = some c)
    (hname : c.inField name = true) : t.child? name = some c := by
  rw [← map_fst_find?_zipIdx, find?_zipIdx_of_single hsingle hc hname, Option.map_some]

theorem mem_inFieldAt_of_single {t c : Tree} {i : Nat} {name : String}
    {select : Tree → List (Address × Tree)}
    (hsingle : (t.children.filter (inField name)).length ≤ 1) (hc : t.children[i]? = some c)
    (hname : c.inField name = true) {b : Address} {s : Tree} (hs : (b, s) ∈ select c) :
    (i :: b, s) ∈ t.inFieldAt name select := by
  rw [inFieldAt, find?_zipIdx_of_single hsingle hc hname]
  exact List.mem_map.2 ⟨(b, s), hs, rfl⟩

theorem HasFields.exists_or_repeated {names repeated : List String} {t c : Tree} {i : Nat}
    (h : t.HasFields names repeated) (hc : t.children[i]? = some c) (hleaf : ¬c.IsLeaf) :
    (∃ name ∈ names, c.inField name = true ∧ (t.children.filter (inField name)).length ≤ 1) ∨
      ∃ name ∈ repeated, c.inField name = true := by
  obtain ⟨name, hmem, hname⟩ := (h.1 c (List.mem_of_getElem? hc)).resolve_left hleaf
  rcases List.mem_append.1 hmem with hmem | hmem
  · exact .inl ⟨name, hmem, hname, h.2 name hmem⟩
  · exact .inr ⟨name, hmem, hname⟩

theorem HasFields.exists_of_not_isLeaf {names : List String} {t c : Tree} {i : Nat}
    (h : t.HasFields names) (hc : t.children[i]? = some c) (hleaf : ¬c.IsLeaf) :
    ∃ name ∈ names, c.inField name = true ∧ (t.children.filter (inField name)).length ≤ 1 :=
  (h.exists_or_repeated hc hleaf).resolve_right fun ⟨_, hmem, _⟩ => List.not_mem_nil hmem

/-- A child with one of two field names is picked under that name. -/
theorem HasFields.mem_two_fields {name name' : String} {t c : Tree} {i : Nat}
    (h : t.HasFields [name, name']) (hc : t.children[i]? = some c) (hleaf : ¬c.IsLeaf) :
    ([i], c) ∈ t.inFieldAt name itself ++ t.inFieldAt name' itself := by
  obtain ⟨field, hmem, hfield, hsingle⟩ := h.exists_of_not_isLeaf hc hleaf
  have hpicked : ([i], c) ∈ t.inFieldAt field itself :=
    mem_inFieldAt_of_single hsingle hc hfield List.mem_cons_self
  rcases List.mem_cons.1 hmem with rfl | hmem
  · exact List.mem_append_left _ hpicked
  · cases List.mem_singleton.1 hmem
    exact List.mem_append_right _ hpicked

end Tree

namespace Node

open ElementLint.Tree

variable {v : View} {t : Tree}

theorem becomesBlock_of_form {c : Tree} (hform : c.form = .block) (h : Succeeds (convert v c)) :
    becomesBlock v c = true := by
  obtain ⟨m, hm⟩ := h
  rw [becomesBlock, hm]
  rw [convert_eq, ofTreeWith, hform] at hm
  obtain ⟨ns, -, hm⟩ := bind_eq_ok_iff.1 hm
  cases hm
  rfl

/-- How the kept operands cover a child that holds a call: the child is kept itself, or all that is in it
is, as far as it holds a call. -/
def Covers (v : View) (t : Tree) (i : Nat) (c : Tree) : Prop :=
  ([i], c) ∈ keptAt v t ∨
    c.form ≠ .call ∧ ∀ j d, c.children[j]? = some d → ¬d.IsLeaf → ([i, j], d) ∈ keptAt v t

theorem covers_of_hasParts {i : Nat} {c : Tree} (hkept : keptAt v t = t.partsAt) (h : t.HasParts)
    (hc : t.children[i]? = some c) (hleaf : ¬c.IsLeaf) : Covers v t i c := by
  left
  rw [hkept]
  exact h.mem_partsAt hc hleaf

theorem covers_if {i : Nat} {c : Tree} (hform : t.form = .ifStatement) (hshape : t.Shaped)
    (hc : t.children[i]? = some c) (hleaf : ¬c.IsLeaf) : Covers v t i c := by
  have hroot := hshape [] t rfl
  rw [WellShaped, hform] at hroot
  obtain ⟨hfields, hclause⟩ := hroot
  rw [Covers, keptAt, if_neg (by rw [hform]; decide), operandsAt, hform]
  dsimp only
  obtain ⟨name, hmem, hname, hsingle⟩ := hfields.exists_of_not_isLeaf hc hleaf
  simp only [List.mem_cons, List.not_mem_nil, or_false] at hmem
  rcases hmem with rfl | rfl | rfl
  · left
    apply List.mem_append_left
    exact List.mem_append_left _ (mem_inFieldAt_of_single hsingle hc hname List.mem_cons_self)
  · left
    apply List.mem_append_left
    exact List.mem_append_right _ (mem_inFieldAt_of_single hsingle hc hname List.mem_cons_self)
  · -- The else clause is passed over, and its one part is kept.
    right
    obtain ⟨hother, hlen⟩ := hclause c (child?_of_single hsingle hc hname)
    have hparts : c.HasParts := by
      have := hshape.child hc [] c rfl
      rw [WellShaped, hother] at this
      exact this
    refine ⟨by rw [hother]; decide, ?_⟩
    intro j d hd hleaf
    apply List.mem_append_right
    apply mem_inFieldAt_of_single hsingle hc hname
    rw [take_partsAt hlen]
    exact hparts.mem_partsAt hd hleaf

theorem covers_call {i : Nat} {c : Tree} (hform : t.form = .call) (hshape : t.Shaped)
    (hc : t.children[i]? = some c) (hleaf : ¬c.IsLeaf) : Covers v t i c := by
  have hroot := hshape [] t rfl
  rw [WellShaped, hform] at hroot
  rw [Covers, keptAt, if_neg (by rw [hform]; decide), operandsAt, hform]
  dsimp only
  obtain ⟨name, hmem, hname, hsingle⟩ := hroot.1.exists_of_not_isLeaf hc hleaf
  simp only [List.mem_cons, List.not_mem_nil, or_false] at hmem
  rcases hmem with rfl | rfl
  · left
    exact List.mem_append_left _ (mem_inFieldAt_of_single hsingle hc hname List.mem_cons_self)
  · by_cases htype : c.type = "arguments"
    · -- The list of arguments is passed over, and its parts are kept.
      right
      have hother : c.form = .other := by rw [form, htype]; rfl
      have hparts : c.HasParts := by
        have := hshape.child hc [] c rfl
        rw [WellShaped, hother] at this
        exact this
      refine ⟨by rw [hother]; decide, ?_⟩
      intro j d hd hleaf
      apply List.mem_append_right
      apply mem_inFieldAt_of_single hsingle hc hname
      rw [if_pos htype]
      exact hparts.mem_partsAt hd hleaf
    · left
      apply List.mem_append_right
      apply mem_inFieldAt_of_single hsingle hc hname
      rw [if_neg htype]
      exact List.mem_cons_self

theorem covers_method {i : Nat} {c : Tree} (hform : t.form = .method) (hshape : t.Shaped)
    (hok : Succeeds (convert v t)) (hc : t.children[i]? = some c) (hleaf : ¬c.IsLeaf)
    (hhead : ¬t.HeadsMethod c) : Covers v t i c := by
  have hroot := hshape [] t rfl
  rw [WellShaped, hform] at hroot
  obtain ⟨hfields, hbody⟩ := hroot
  obtain ⟨-, hoperands⟩ := (succeeds_convert_iff_operands v t).1 hok
  rw [operandsAt, hform] at hoperands
  left
  rw [keptAt, if_pos hform]
  have hnot {name : String} (hmem : name ∈ ["name", "decorator"]) : ¬c.inField name = true :=
    fun hname => hhead ⟨hform, name, hmem, hname⟩
  have hrepeated : ¬∃ name ∈ ["decorator"], c.inField name = true := by
    rintro ⟨_, hmem, hname⟩
    exact hnot (List.mem_cons_of_mem _ hmem) hname
  obtain ⟨name, hmem, hname, hsingle⟩ := (hfields.exists_or_repeated hc hleaf).resolve_right hrepeated
  simp only [List.mem_cons, List.not_mem_nil, or_false] at hmem
  rcases hmem with rfl | rfl | rfl
  · exact absurd hname (hnot List.mem_cons_self)
  · exact List.mem_append_left _ (mem_inFieldAt_of_single hsingle hc hname List.mem_cons_self)
  · have hoperand : ([i], c) ∈ t.inFieldAt "body" itself :=
      mem_inFieldAt_of_single hsingle hc hname List.mem_cons_self
    have hblock := becomesBlock_of_form (hbody c (child?_of_single hsingle hc hname))
      (hoperands _ (List.mem_append_right _ hoperand))
    apply List.mem_append_right
    apply mem_inFieldAt_of_single hsingle hc hname
    rw [if_pos hblock]
    exact List.mem_cons_self

/-- A child that holds a call is covered, unless it is the name or a decorator of a method. -/
theorem covers_of_shaped {i : Nat} {c : Tree} (hshape : t.Shaped) (hok : Succeeds (convert v t))
    (hc : t.children[i]? = some c) (hleaf : ¬c.IsLeaf)
    (hhead : ¬t.HeadsMethod c) : Covers v t i c := by
  have hroot := hshape [] t rfl
  unfold WellShaped at hroot
  have hkept (hmethod : t.form ≠ .method) : keptAt v t = t.operandsAt := by
    rw [keptAt, if_neg hmethod]
  have hatom (h : ∀ c ∈ t.children, c.IsLeaf) : Covers v t i c :=
    absurd (h c (List.mem_of_getElem? hc)) hleaf
  cases hform : t.form with
  | program | block | parenthesized | other =>
    rw [hform] at hroot
    apply covers_of_hasParts _ hroot hc hleaf
    rw [hkept (by rw [hform]; decide), operandsAt, hform]
  | expressionStatement =>
    rw [hform] at hroot
    apply covers_of_hasParts _ hroot.1 hc hleaf
    rw [hkept (by rw [hform]; decide), operandsAt, hform]
    exact take_partsAt hroot.2
  | ifStatement => exact covers_if hform hshape hc hleaf
  | call => exact covers_call hform hshape hc hleaf
  | member | subscript | binary =>
    rw [hform] at hroot
    left
    rw [hkept (by rw [hform]; decide), operandsAt, hform]
    exact hroot.mem_two_fields hc hleaf
  | unary =>
    rw [hform] at hroot
    obtain ⟨name, hmem, hname, hsingle⟩ := hroot.exists_of_not_isLeaf hc hleaf
    cases List.mem_singleton.1 hmem
    left
    rw [hkept (by rw [hform]; decide), operandsAt, hform]
    exact mem_inFieldAt_of_single hsingle hc hname List.mem_cons_self
  | method => exact covers_method hform hshape hok hc hleaf hhead
  | super | string | number | bool | null | identifier =>
    rw [hform] at hroot
    exact hatom hroot

/-- A call outside the names and decorators of methods is an origin. -/
theorem mem_origins_of_call {a : Address} {s : Tree} (hshape : t.Shaped)
    (hok : Succeeds (convert v t)) (hs : t.at? a = some s) (hcall : s.form = .call)
    (hname : ¬t.InMethodHead a) : a ∈ origins v t := by
  induction t using Tree.inductionOn generalizing a with
  | step t ih =>
    rw [origins_eq]
    cases a with
    | nil =>
      cases hs
      have hwrapper : s.isWrapper = false := by rw [isWrapper, hcall]; rfl
      rw [hwrapper]
      exact List.mem_cons_self
    | cons i b =>
      have hkept {o : Address × Tree} (ho : o ∈ keptAt v t) {b' : Address} (hb : i :: b = o.1 ++ b')
          (hs' : o.2.at? b' = some s) (hname' : ¬o.2.InMethodHead b') :
          i :: b ∈ (keptAt v t).flatMap fun o => (origins v o.2).map (o.1 ++ ·) := by
        have hoperand := (keptAt_sublist v t).subset ho
        have hmem := ih o.2 (size_lt_of_mem_operandsAt hoperand)
          (hshape.at (at?_of_mem_operandsAt hoperand))
          (((succeeds_convert_iff_operands v t).1 hok).2 o hoperand) hs' hname'
        rw [hb]
        exact List.mem_flatMap.2 ⟨o, ho, List.mem_map_of_mem hmem⟩
      apply List.mem_append_right
      obtain ⟨c, hc, hs⟩ := Option.bind_eq_some_iff.1 hs
      have hcovers := covers_of_shaped hshape hok hc (not_isLeaf_of_at? hs hcall)
        fun h => hname ((inMethodHead_cons hc b).2 (.inl h))
      rcases hcovers with ho | ⟨hform, hall⟩
      · exact hkept ho rfl hs fun h => hname ((inMethodHead_cons hc b).2 (.inr h))
      · cases b with
        | nil =>
          cases hs
          exact absurd hcall hform
        | cons j b =>
          obtain ⟨d, hd, hs⟩ := Option.bind_eq_some_iff.1 hs
          have hname' : ¬c.InMethodHead (j :: b) := fun h =>
            hname ((inMethodHead_cons hc (j :: b)).2 (.inr h))
          exact hkept (hall j d hd (not_isLeaf_of_at? hs hcall)) rfl hs
            fun h => hname' ((inMethodHead_cons hd b).2 (.inr h))

/-- Where an operand stands: in a child that is no name or decorator of a method, or one step further down
in a child that is no method. -/
def StandsOutside (t : Tree) (o : Address × Tree) : Prop :=
  (∃ i, o.1 = [i] ∧ t.children[i]? = some o.2 ∧ ¬t.HeadsMethod o.2) ∨
  ∃ i j c, o.1 = [i, j] ∧ t.children[i]? = some c ∧ c.children[j]? = some o.2 ∧
    t.form ≠ .method ∧ c.form ≠ .method

theorem standsOutside_of_mem_partsAt {o : Address × Tree} (hform : t.form ≠ .method)
    (ho : o ∈ t.partsAt) : StandsOutside t o := by
  obtain ⟨i, hi, hc, -⟩ := mem_partsAt.1 ho
  exact .inl ⟨i, hi, hc, fun h => hform h.1⟩

theorem standsOutside_of_mem_field {name : String} {o : Address × Tree}
    (hname : name ∉ ["name", "decorator"]) (ho : o ∈ t.inFieldAt name itself) : StandsOutside t o := by
  obtain ⟨i, c, b, hc, hfield, -, hi, hb⟩ := exists_of_mem_inFieldAt ho
  cases mem_itself.1 hb
  refine .inl ⟨i, hi, hc, ?_⟩
  rintro ⟨-, name', hmem, hfield'⟩
  rw [inField, beq_iff_eq] at hfield hfield'
  cases hfield.symm.trans hfield'
  exact hname hmem

theorem standsOutside_of_mem_two_fields {name name' : String} {o : Address × Tree}
    (hname : name ∉ ["name", "decorator"]) (hname' : name' ∉ ["name", "decorator"])
    (ho : o ∈ t.inFieldAt name itself ++ t.inFieldAt name' itself) : StandsOutside t o := by
  rcases List.mem_append.1 ho with ho | ho
  · exact standsOutside_of_mem_field hname ho
  · exact standsOutside_of_mem_field hname' ho

/-- What is picked among the parts of a child that is no method. -/
theorem standsOutside_of_mem_partsAt_child {name : String} {select : Tree → List (Address × Tree)}
    {o : Address × Tree} (hform : t.form ≠ .method) (ho : o ∈ t.inFieldAt name select)
    (hselect : ∀ c, t.child? name = some c → ∀ p ∈ select c, p ∈ c.partsAt ∧ c.form ≠ .method) :
    StandsOutside t o := by
  obtain ⟨i, c, b, hc, -, hchild, hi, hb⟩ := exists_of_mem_inFieldAt ho
  obtain ⟨hpart, hother⟩ := hselect c hchild _ hb
  obtain ⟨j, hj, hd, -⟩ := mem_partsAt.1 hpart
  have hj : b = [j] := hj
  rw [hj] at hi
  exact .inr ⟨i, j, c, hi, hc, hd, hform, hother⟩

theorem standsOutside_of_mem_operandsAt {o : Address × Tree} (hroot : t.WellShaped)
    (ho : o ∈ t.operandsAt) : StandsOutside t o := by
  unfold operandsAt at ho
  unfold WellShaped at hroot
  cases hform : t.form with
  | program | block | parenthesized | other =>
    rw [hform] at ho
    exact standsOutside_of_mem_partsAt (by rw [hform]; decide) ho
  | expressionStatement =>
    rw [hform] at ho
    exact standsOutside_of_mem_partsAt (by rw [hform]; decide) (List.mem_of_mem_take ho)
  | ifStatement =>
    rw [hform] at ho hroot
    rcases List.mem_append.1 ho with ho | ho
    · exact standsOutside_of_mem_two_fields (by decide) (by decide) ho
    · apply standsOutside_of_mem_partsAt_child (by rw [hform]; decide) ho
      intro clause hclause p hp
      exact ⟨List.mem_of_mem_take hp, by rw [(hroot.2 clause hclause).1]; decide⟩
  | call =>
    rw [hform] at ho
    rcases List.mem_append.1 ho with ho | ho
    · exact standsOutside_of_mem_field (by decide) ho
    · obtain ⟨i, c, b, hc, hfield, hchild, hi, hb⟩ := exists_of_mem_inFieldAt ho
      by_cases htype : c.type = "arguments"
      · have hother : c.form = .other := by rw [form, htype]; rfl
        apply standsOutside_of_mem_partsAt_child (by rw [hform]; decide) ho
        intro c' hc' p hp
        cases hchild.symm.trans hc'
        rw [if_pos htype] at hp
        exact ⟨hp, by rw [hother]; decide⟩
      · rw [if_neg htype] at hb
        cases mem_itself.1 hb
        have hcall : t.form ≠ .method := by rw [hform]; decide
        exact .inl ⟨i, hi, hc, fun h => hcall h.1⟩
  | member | subscript | binary | method =>
    rw [hform] at ho
    exact standsOutside_of_mem_two_fields (by decide) (by decide) ho
  | unary =>
    rw [hform] at ho
    exact standsOutside_of_mem_field (by decide) ho
  | super | string | number | bool | null | identifier =>
    rw [hform] at ho
    cases ho

theorem StandsOutside.inMethodHead {o : Address × Tree} (h : StandsOutside t o) {a : Address}
    (hname : t.InMethodHead (o.1 ++ a)) : o.2.InMethodHead a := by
  rcases h with ⟨i, hi, hc, hnot⟩ | ⟨i, j, c, hi, hc, hd, hform, hform'⟩
  · rw [hi, List.singleton_append, inMethodHead_cons hc] at hname
    exact hname.resolve_left hnot
  · rw [hi, List.cons_append, List.singleton_append, inMethodHead_cons hc,
      inMethodHead_cons hd] at hname
    have hbelow := hname.resolve_left fun h => hform h.1
    exact hbelow.resolve_left fun h => hform' h.1

/-- No origin stands in the name or a decorator of a method. -/
theorem not_inMethodHead_of_mem_origins {a : Address} (hshape : t.Shaped) (ha : a ∈ origins v t) :
    ¬t.InMethodHead a := by
  induction t using Tree.inductionOn generalizing a with
  | step t ih =>
    rw [origins_eq] at ha
    rcases List.mem_append.1 ha with ha | ha
    · split at ha
      · cases ha
      · cases List.mem_singleton.1 ha
        exact nofun
    · obtain ⟨o, ho, ha⟩ := List.mem_flatMap.1 ha
      obtain ⟨b, hb, rfl⟩ := List.mem_map.1 ha
      have hoperand := (keptAt_sublist v t).subset ho
      intro hname
      have houtside := standsOutside_of_mem_operandsAt (hshape [] t rfl) hoperand
      exact ih o.2 (size_lt_of_mem_operandsAt hoperand)
        (hshape.at (at?_of_mem_operandsAt hoperand)) hb (houtside.inMethodHead hname)

/-- In a tree with the shapes of the grammar, the nodes that the walk visits come from places in the tree,
no two from the same one. A node is a call if the tree at its place is one with a list of arguments, and
every such tree is the place of a node unless it stands in the name or a decorator of a method. -/
theorem walk_visits_calls_outside_method_heads (v : View) (limit : Nat) (t : Tree) (n : Node)
    (hshape : t.Shaped) (h : ofTree v limit t = .ok n) :
    ∃ places : List Address,
      places.Nodup ∧
      List.Forall₂ (fun a m => ∃ s, t.at? a = some s ∧ convert v s = .ok m ∧
        m.pos = v.locate s.label ∧ (m.kind = .callExpression ↔ s.IsPlainCall))
        places ((n.walk 0).map Visit.node) ∧
      ∀ a s, t.at? a = some s → s.IsPlainCall → (a ∈ places ↔ ¬t.InMethodHead a) := by
  have hn := convert_of_ofTree h
  refine ⟨origins v t, nodup_origins v t, ?_, ?_⟩
  · rw [map_node_walk]
    apply (forall₂_origins hn).imp
    rintro a m ⟨s, hs, hwrapper, hm⟩
    have hbuilt := built_of_convert hwrapper hm
    exact ⟨s, hs, hm, hbuilt.pos, hbuilt.call.trans (isPlainCall_iff (hshape a s hs)).symm⟩
  · intro a s hs hcall
    constructor
    · exact not_inMethodHead_of_mem_origins hshape
    · exact mem_origins_of_call hshape ⟨n, hn⟩ hs hcall.1

/-- The tree of `f()`, from a byte on. -/
def callTree (start : Nat) : Tree :=
  .namedNode "call_expression" start (start + 3) none [
    .namedNode "identifier" start (start + 1) (some "function") [],
    .namedNode "arguments" (start + 1) (start + 3) (some "arguments") [
      .token "(" (start + 1) (start + 2), .token ")" (start + 2) (start + 3)]]

/-- The tree of a class whose one method has a call in a decorator, one in its computed name and one in its
body. -/
def computedNameTree : Tree :=
  .namedNode "program" 0 32 none [
    .namedNode "class_declaration" 0 32 none [
      .token "class" 0 5,
      .namedNode "identifier" 6 7 (some "name") [],
      .namedNode "class_body" 8 32 (some "body") [
        .token "\x7b" 8 9,
        .namedNode "method_definition" 10 30 none [
          .namedNode "decorator" 10 14 (some "decorator") [.token "@" 10 11, callTree 11],
          .namedNode "computed_property_name" 15 20 (some "name") [
            .token "[" 15 16, callTree 16, .token "]" 19 20],
          .namedNode "formal_parameters" 20 22 (some "parameters") [
            .token "(" 20 21, .token ")" 21 22],
          .namedNode "statement_block" 23 30 (some "body") [
            .token "\x7b" 23 24,
            .namedNode "expression_statement" 25 28 none [callTree 25],
            .token "\x7d" 29 30]],
        .token "\x7d" 31 32]]]

/-- The view of the text of that class. -/
def computedNameView : View :=
  .ofSource (.ofBytes (Utf8.encode "class A \x7b @f() [f()]() \x7b f() \x7d \x7d"))

theorem shaped_computedNameTree : computedNameTree.Shaped := by
  have hall : ∀ s ∈ computedNameTree.subtrees, s.WellShaped := by decide
  intro a s hs
  exact hall s (mem_subtrees_of_at? hs)

/-- Of the three calls in a method, the one in the decorator and the one in the name are lost. -/
theorem walk_visits_calls_outside_method_heads_computed :
    computedNameTree.Shaped ∧
      ∃ n, ofTree computedNameView maxDepth computedNameTree = .ok n ∧
        ∃ places : List Address,
          places.Nodup ∧
          List.Forall₂ (fun a m => ∃ s, computedNameTree.at? a = some s ∧
            convert computedNameView s = .ok m ∧ m.pos = computedNameView.locate s.label ∧
            (m.kind = .callExpression ↔ s.IsPlainCall)) places ((n.walk 0).map Visit.node) ∧
          computedNameTree.at? [0, 2, 1, 0, 1] = some (callTree 11) ∧ [0, 2, 1, 0, 1] ∉ places ∧
          computedNameTree.at? [0, 2, 1, 1, 1] = some (callTree 16) ∧ [0, 2, 1, 1, 1] ∉ places ∧
          computedNameTree.at? [0, 2, 1, 3, 1, 0] = some (callTree 25) ∧
          [0, 2, 1, 3, 1, 0] ∈ places := by
  have hcall (start : Nat) : (callTree start).IsPlainCall := ⟨rfl, _, rfl, rfl⟩
  refine ⟨shaped_computedNameTree, _, rfl, ?_⟩
  obtain ⟨places, hnodup, hplaces, hcalls⟩ := walk_visits_calls_outside_method_heads
    computedNameView maxDepth computedNameTree _ shaped_computedNameTree rfl
  refine ⟨places, hnodup, hplaces, rfl, ?_, rfl, ?_, rfl, ?_⟩
  · rw [hcalls _ _ rfl (hcall 11)]
    decide
  · rw [hcalls _ _ rfl (hcall 16)]
    decide
  · rw [hcalls _ _ rfl (hcall 25)]
    decide

end Node

end ElementLint
