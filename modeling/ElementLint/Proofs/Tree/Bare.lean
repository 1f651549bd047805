import ElementLint.Proofs.Node.Origins

/-!
# Trees without comments and redundant parentheses

`bare` leaves comments out of a tree and puts the expression inside in place of parentheses around one
expression, at all depths. Both may stand almost anywhere. `Tidy` says where they may not: a comment is
not reached by a field name and is no piece of a string, and parentheses stand where the grammar has an
expression. In a tree that is tidy throughout the root of the bare tree has the bare parts and the bare
children of the tree, which is all that conversion asks of a root (`parts_bare`, `child?_bare`).
-/

namespace ElementLint

namespace Tree

/-- A tree with the field name in a label. -/
def withFieldOf (l : Label) : Tree → Tree
  | .node label children => .node { label with field := l.field } children

@[simp] theorem field_withFieldOf (l : Label) (t : Tree) : (t.withFieldOf l).label.field = l.field := by
  cases t
  rfl

@[simp] theorem named_withFieldOf (l : Label) (t : Tree) :
    (t.withFieldOf l).label.named = t.label.named := by
  cases t
  rfl

@[simp] theorem type_withFieldOf (l : Label) (t : Tree) : (t.withFieldOf l).type = t.type := by
  cases t
  rfl

mutual

/-- A tree without comments, in which an expression stands in place of the parentheses around it and takes
over their field name. -/
def bare : Tree → Tree
  | .node label children =>
    match (Tree.node label children).isWrapper, barePart? children with
    | true, some t => t.withFieldOf label
    | _, _ => .node label (bareList children)

/-- The bare trees of some trees, without the comments among them. -/
def bareList : List Tree → List Tree
  | [] => []
  | t :: ts => if t.isComment then bareList ts else bare t :: bareList ts

/-- The bare tree of the first part among some trees. -/
def barePart? : List Tree → Option Tree
  | [] => none
  | t :: ts => if t.label.named && !t.isComment then some (bare t) else barePart? ts

end

theorem bareList_eq (ts : List Tree) : bareList ts = (ts.filter (!·.isComment)).map bare := by
  induction ts with
  | nil => rfl
  | cons t ts ih =>
    rw [bareList, ih]
    cases ht : t.isComment with
    | true => rw [if_pos rfl, List.filter_cons_of_neg (by simp [ht])]
    | false => rw [if_neg (by simp), List.filter_cons_of_pos (by simp [ht]), List.map_cons]

theorem barePart?_children (t : Tree) : barePart? t.children = t.parts.head?.map bare := by
  rw [parts_eq_filter]
  induction t.children with
  | nil => rfl
  | cons c cs ih =>
    rw [barePart?, ih]
    cases hc : c.label.named && !c.isComment with
    | true => rw [if_pos rfl, List.filter_cons_of_pos (by exact hc), List.head?_cons, Option.map_some]
    | false => rw [if_neg (by simp), List.filter_cons_of_neg (by simp [hc])]

theorem exists_part_of_isWrapper {t : Tree} (h : t.isWrapper = true) : ∃ p, t.parts = [p] := by
  rw [isWrapper, Bool.and_eq_true, beq_iff_eq] at h
  exact List.length_eq_one_iff.1 h.2

/-- Parentheses around an expression become the bare expression. -/
theorem bare_of_isWrapper {t p : Tree} (h : t.isWrapper = true) (hp : t.parts = [p]) :
    t.bare = p.bare.withFieldOf t.label := by
  have hpart := barePart?_children t
  rw [hp, List.head?_cons, Option.map_some] at hpart
  obtain ⟨label, children⟩ := t
  rw [children_node] at hpart
  rw [bare, h, hpart, label_node]

/-- Any other tree keeps its root. -/
theorem bare_of_not_isWrapper {t : Tree} (h : t.isWrapper = false) :
    t.bare = .node t.label ((t.children.filter (!·.isComment)).map bare) := by
  obtain ⟨label, children⟩ := t
  rw [bare, h, bareList_eq, label_node, children_node]

theorem label_bare {t : Tree} (h : t.isWrapper = false) : t.bare.label = t.label := by
  rw [bare_of_not_isWrapper h, label_node]

theorem type_bare {t : Tree} (h : t.isWrapper = false) : t.bare.type = t.type :=
  congrArg Label.type (label_bare h)

theorem form_bare {t : Tree} (h : t.isWrapper = false) : t.bare.form = t.form :=
  congrArg Form.ofType (type_bare h)

theorem children_bare {t : Tree} (h : t.isWrapper = false) :
    t.bare.children = (t.children.filter (!·.isComment)).map bare := by
  rw [bare_of_not_isWrapper h, children_node]

@[simp] theorem field_bare (t : Tree) : t.bare.label.field = t.label.field := by
  cases h : t.isWrapper with
  | true =>
    obtain ⟨p, hp⟩ := exists_part_of_isWrapper h
    rw [bare_of_isWrapper h hp, field_withFieldOf]
  | false => rw [label_bare h]

theorem mem_parts {t s : Tree} :
    s ∈ t.parts ↔ s ∈ t.children ∧ s.label.named = true ∧ s.isComment = false := by
  rw [parts_eq_filter, List.mem_filter, Bool.and_eq_true, Bool.not_eq_true']

/-- A part stays one. -/
theorem part_bare {t : Tree} (hnamed : t.label.named = true) (hcomment : t.isComment = false) :
    t.bare.label.named = true ∧ t.bare.isComment = false := by
  induction t using inductionOn with
  | step t ih =>
    cases h : t.isWrapper with
    | true =>
      obtain ⟨p, hp⟩ := exists_part_of_isWrapper h
      have hmem : p ∈ t.parts := by rw [hp]; exact List.mem_cons_self
      obtain ⟨-, hnamed, hcomment⟩ := mem_parts.1 hmem
      rw [bare_of_isWrapper h hp, named_withFieldOf, isComment, type_withFieldOf]
      exact ih p (size_lt_of_mem_parts hmem) hnamed hcomment
    | false =>
      rw [isComment, type_bare h, label_bare h]
      exact ⟨hnamed, hcomment⟩

/-! ## Tidy trees -/

/-- Whether the grammar has something other than an expression where a child stands: a piece of a string,
the name of a method, the arguments of a call, the else clause of a conditional, or an operator. -/
def reserves (t c : Tree) : Bool :=
  match t.form with
  | .string => true
  | .method => c.inField "name"
  | .call => c.inField "arguments"
  | .ifStatement => c.inField "alternative"
  | .binary | .unary => c.inField "operator"
  | _ => false

/-- Comments and redundant parentheses stand where they may below the root of a tree: a comment has no
field name and is not in a string; and parentheses around one expression, which are more than a token,
stand for an expression and hold one, not the mark of an optional access. -/
structure Tidy (t : Tree) : Prop where
  comment : ∀ c ∈ t.children, c.isComment = true → c.label.field = none ∧ t.form ≠ .string
  wrapper : ∀ c ∈ t.children, c.isWrapper = true → c.label.named = true ∧ t.reserves c = false
  wrapped : t.isWrapper = true → ∀ p ∈ t.parts, p.type ≠ "optional_chain"

theorem tidy_iff {t : Tree} :
    t.Tidy ↔
      (∀ c ∈ t.children, c.isComment = true → c.label.field = none ∧ t.form ≠ .string) ∧
      (∀ c ∈ t.children, c.isWrapper = true → c.label.named = true ∧ t.reserves c = false) ∧
      (t.isWrapper = true → ∀ p ∈ t.parts, p.type ≠ "optional_chain") :=
  ⟨fun h => ⟨h.comment, h.wrapper, h.wrapped⟩, fun h => ⟨h.1, h.2.1, h.2.2⟩⟩

instance (t : Tree) : Decidable t.Tidy := decidable_of_iff _ tidy_iff.symm

def TidyThroughout (t : Tree) : Prop := ∀ a s, t.at? a = some s → s.Tidy

theorem TidyThroughout.root {t : Tree} (h : t.TidyThroughout) : t.Tidy := h [] t rfl

theorem TidyThroughout.child {t c : Tree} (h : t.TidyThroughout) (hc : c ∈ t.children) :
    c.TidyThroughout := by
  obtain ⟨i, hi⟩ := List.getElem?_of_mem hc
  intro a s hs
  exact h (i :: a) s (by rw [at?_cons, hi, Option.bind_some, hs])

theorem TidyThroughout.part {t p : Tree} (h : t.TidyThroughout) (hp : p ∈ t.parts) :
    p.TidyThroughout :=
  h.child (mem_children_of_mem_parts hp)

theorem TidyThroughout.child? {t c : Tree} {name : String} (h : t.TidyThroughout)
    (hc : t.child? name = some c) : c.TidyThroughout :=
  h.child (mem_children_of_child? hc)

/-- What is in a field that is reserved is no parenthesised expression. -/
theorem Tidy.not_isWrapper {t c : Tree} (h : t.Tidy) (hc : c ∈ t.children)
    (hreserved : t.reserves c = true) : c.isWrapper = false := by
  by_contra hwrapper
  obtain ⟨-, hfree⟩ := h.wrapper c hc (by simpa using hwrapper)
  rw [hreserved] at hfree
  cases hfree

theorem Tidy.not_isWrapper_of_child? {t c : Tree} {name : String} (h : t.Tidy)
    (hc : t.child? name = some c) (hreserved : t.reserves c = c.inField name) :
    c.isWrapper = false :=
  h.not_isWrapper (mem_children_of_child? hc) (hreserved.trans (List.find?_some hc))

/-- The parts of a tidy tree are those of the bare tree, which are bare. -/
theorem parts_bare {t : Tree} (h : t.Tidy) (hwrapper : t.isWrapper = false) :
    t.bare.parts = t.parts.map bare := by
  rw [parts_eq_filter, parts_eq_filter, children_bare hwrapper, List.filter_map, List.filter_filter]
  congr 1
  apply List.filter_congr
  intro c hc
  rw [Function.comp_apply]
  cases hcomment : c.isComment with
  | true => rw [Bool.not_true, Bool.and_false, Bool.and_false]
  | false =>
    rw [Bool.not_false, Bool.and_true, Bool.and_true]
    cases hnamed : c.label.named with
    | true =>
      obtain ⟨hbare, hbare'⟩ := part_bare hnamed hcomment
      rw [hbare, hbare']
      rfl
    | false =>
      -- A child that is no more than a token is no parenthesised expression, so it keeps its label.
      have hno : c.isWrapper = false := by
        by_contra hw
        rw [(h.wrapper c hc (by simpa using hw)).1] at hnamed
        cases hnamed
      rw [label_bare hno, hnamed, Bool.false_and]

/-- The child of a tidy tree with a field name is that of the bare tree, which is bare. -/
theorem child?_bare {t : Tree} (h : t.Tidy) (hwrapper : t.isWrapper = false) (name : String) :
    t.bare.child? name = (t.child? name).map bare := by
  have hfield : inField name ∘ bare = inField name := by
    funext c
    rw [Function.comp_apply, inField, inField, field_bare]
  rw [child?, child?, children_bare hwrapper, List.find?_map, hfield, ← List.head?_filter,
    ← List.head?_filter, List.filter_filter]
  congr 2
  apply List.filter_congr
  intro c hc
  cases hcomment : c.isComment with
  | true => simp [inField, (h.comment c hc hcomment).1]
  | false => simp

/-- A bare tree is the mark of an optional access only if the tree is. -/
theorem type_bare_eq_mark_iff {t : Tree} (h : t.TidyThroughout) :
    t.bare.type = "optional_chain" ↔ t.type = "optional_chain" := by
  induction t using inductionOn with
  | step t ih =>
    cases hwrapper : t.isWrapper with
    | true =>
      obtain ⟨p, hp⟩ := exists_part_of_isWrapper hwrapper
      have hmem : p ∈ t.parts := by rw [hp]; exact List.mem_cons_self
      rw [bare_of_isWrapper hwrapper hp, type_withFieldOf, ih p (size_lt_of_mem_parts hmem) (h.part hmem)]
      apply iff_of_false (h.root.wrapped hwrapper p hmem)
      intro htype
      have hform : t.form = .other := by rw [form, htype]; rfl
      rw [isWrapper, hform] at hwrapper
      cases hwrapper
    | false => rw [type_bare hwrapper]

theorem hasOptionalMark_bare {t : Tree} (h : t.TidyThroughout) (hwrapper : t.isWrapper = false) :
    t.bare.hasOptionalMark = t.hasOptionalMark := by
  rw [Bool.eq_iff_iff, hasOptionalMark, hasOptionalMark, List.any_eq_true, List.any_eq_true,
    children_bare hwrapper]
  simp only [beq_iff_eq]
  constructor
  · rintro ⟨b, hb, hmark⟩
    obtain ⟨c, hc, rfl⟩ := List.mem_map.1 hb
    have hchild := List.mem_of_mem_filter hc
    exact ⟨c, hchild, (type_bare_eq_mark_iff (h.child hchild)).1 hmark⟩
  · rintro ⟨c, hc, hmark⟩
    have hcomment : c.isComment = false := by rw [isComment, hmark]; rfl
    refine ⟨c.bare, List.mem_map_of_mem ?_, (type_bare_eq_mark_iff (h.child hc)).2 hmark⟩
    exact List.mem_filter.2 ⟨hc, by rw [hcomment]; rfl⟩

end Tree

end ElementLint
