import ElementLint.Proofs.Tree.Address

/-!
# Operands

The operands of a tree are the trees that conversion goes on with from its root: for most constructs all
the parts, for some of them what stands under certain field names. `operandsAt` lists them with their
addresses, in the order in which the nodes made of them become children. An `if` reaches past its else
clause, and a call past its list of arguments, so an operand may stand two steps down.

The main statements are that an operand stands at its address (`at?_of_mem_operandsAt`), that it is
smaller than the tree (`size_lt_of_mem_operandsAt`), and that no operand stands inside another one
(`pairwise_operandsAt`). The last is one case of `pairwise_operandsAt_of`: the operands are related one to
the next as soon as the children that are asked for by name are.
-/

namespace ElementLint

/-- Two addresses of which neither goes on from the other. -/
def Address.Apart (a b : Address) : Prop := ∀ c d : Address, a ++ c ≠ b ++ d

theorem Address.apart_cons_of_ne {i j : Nat} (h : i ≠ j) (a b : Address) :
    Address.Apart (i :: a) (j :: b) := by
  intro c d heq
  exact h (List.cons.inj heq).1

theorem Address.Apart.cons {a b : Address} (h : Address.Apart a b) (i : Nat) :
    Address.Apart (i :: a) (i :: b) := by
  intro c d heq
  exact h c d (List.cons.inj heq).2

namespace Tree

/-- A tree as the only one that is looked for in it. -/
def itself (t : Tree) : List (Address × Tree) := [([], t)]

/-- Trees in a child, with addresses from the parent on. -/
def under (i : Nat) (os : List (Address × Tree)) : List (Address × Tree) :=
  os.map fun o => (i :: o.1, o.2)

/-- The parts, each at its address. -/
def partsAt (t : Tree) : List (Address × Tree) :=
  (t.children.zipIdx.filter fun c => c.1.label.named && !c.1.isComment).map fun c => ([c.2], c.1)

/-- What `select` picks in the child with a field name. -/
def inFieldAt (t : Tree) (name : String) (select : Tree → List (Address × Tree)) :
    List (Address × Tree) :=
  match t.children.zipIdx.find? fun c => c.1.inField name with
  | none => []
  | some (c, i) => under i (select c)

/-- The trees that conversion goes on with from the root, each at its address. -/
def operandsAt (t : Tree) : List (Address × Tree) :=
  match t.form with
  | .program | .block | .parenthesized | .other => t.partsAt
  | .expressionStatement => t.partsAt.take 1
  | .ifStatement =>
    t.inFieldAt "condition" itself ++ t.inFieldAt "consequence" itself ++
      t.inFieldAt "alternative" fun clause => clause.partsAt.take 1
  | .call =>
    t.inFieldAt "function" itself ++
      t.inFieldAt "arguments" fun c => if c.type = "arguments" then c.partsAt else c.itself
  | .member => t.inFieldAt "object" itself ++ t.inFieldAt "property" itself
  | .subscript => t.inFieldAt "object" itself ++ t.inFieldAt "index" itself
  | .binary => t.inFieldAt "left" itself ++ t.inFieldAt "right" itself
  | .unary => t.inFieldAt "argument" itself
  | .method => t.inFieldAt "parameters" itself ++ t.inFieldAt "body" itself
  | .super | .string | .number | .bool _ | .null | .identifier => []

/-- The trees that conversion comes to from a tree. -/
inductive Reaches : Tree → Tree → Prop
  | root (t : Tree) : Reaches t t
  | operand {t u : Tree} {o : Address × Tree} (ho : o ∈ t.operandsAt) (h : Reaches o.2 u) :
      Reaches t u

/-! ## What stands where -/

theorem mem_itself {t : Tree} {o : Address × Tree} : o ∈ t.itself ↔ o = ([], t) :=
  List.mem_singleton

theorem mem_partsAt {t : Tree} {o : Address × Tree} :
    o ∈ t.partsAt ↔ ∃ i, o.1 = [i] ∧ t.children[i]? = some o.2 ∧
      o.2.label.named = true ∧ o.2.isComment = false := by
  obtain ⟨a, s⟩ := o
  simp only [partsAt, List.mem_map, List.mem_filter, List.mem_zipIdx_iff_getElem?, Prod.exists,
    Prod.mk.injEq, Bool.and_eq_true, Bool.not_eq_true']
  constructor
  · rintro ⟨c, i, ⟨hc, hnamed, hcomment⟩, rfl, rfl⟩
    exact ⟨i, rfl, hc, hnamed, hcomment⟩
  · rintro ⟨i, rfl, hs, hnamed, hcomment⟩
    exact ⟨s, i, ⟨hs, hnamed, hcomment⟩, rfl, rfl⟩

theorem parts_eq_filter (t : Tree) :
    t.parts = t.children.filter fun c => c.label.named && !c.isComment := by
  rw [parts, namedChildren, List.filter_filter]
  congr 1
  funext c
  exact Bool.and_comm _ _

theorem map_snd_partsAt (t : Tree) : t.partsAt.map Prod.snd = t.parts := by
  have hzip : t.children.zipIdx.map Prod.fst = t.children := List.zipIdx_map_fst 0 _
  rw [parts_eq_filter, ← congrArg (List.filter _) hzip, List.filter_map, partsAt, List.map_map]
  rfl

theorem find?_zipIdx_eq_some {t : Tree} {name : String} {c : Tree} {i : Nat}
    (h : t.children.zipIdx.find? (fun c => c.1.inField name) = some (c, i)) :
    t.children[i]? = some c ∧ c.inField name = true := by
  have hfield := List.find?_some h
  exact ⟨List.mem_zipIdx_iff_getElem?.1 (List.mem_of_find?_eq_some h), hfield⟩

theorem map_fst_find?_zipIdx (t : Tree) (name : String) :
    (t.children.zipIdx.find? fun c => c.1.inField name).map Prod.fst = t.child? name := by
  have hzip : t.children.zipIdx.map Prod.fst = t.children := List.zipIdx_map_fst 0 _
  rw [child?, ← congrArg (List.find? _) hzip, List.find?_map]
  rfl

/-- What is picked in a field stands in the child with the field name. -/
theorem exists_of_mem_inFieldAt {t : Tree} {name : String} {select : Tree → List (Address × Tree)}
    {o : Address × Tree} (h : o ∈ t.inFieldAt name select) :
    ∃ i c b, t.children[i]? = some c ∧ c.inField name = true ∧ t.child? name = some c ∧
      o.1 = i :: b ∧ (b, o.2) ∈ select c := by
  rw [inFieldAt] at h
  split at h
  · cases h
  · rename_i c i hfind
    obtain ⟨⟨b, s⟩, hb, rfl⟩ := List.mem_map.1 h
    obtain ⟨hchild, hfield⟩ := find?_zipIdx_eq_some hfind
    have hfirst : t.child? name = some c := by
      rw [← map_fst_find?_zipIdx, hfind, Option.map_some]
    exact ⟨i, c, b, hchild, hfield, hfirst, rfl, hb⟩

theorem map_snd_inFieldAt (t : Tree) (name : String) (select : Tree → List (Address × Tree)) :
    (t.inFieldAt name select).map Prod.snd =
      (t.child? name).toList.flatMap fun c => (select c).map Prod.snd := by
  rw [inFieldAt, ← map_fst_find?_zipIdx]
  cases t.children.zipIdx.find? fun c => c.1.inField name with
  | none => rfl
  | some c => simp [under, Function.comp_def]

/-- Whether every tree that is picked stands at its address. -/
def Locates (select : Tree → List (Address × Tree)) : Prop :=
  ∀ t, ∀ o ∈ select t, t.at? o.1 = some o.2

theorem locates_itself : Locates itself := by
  intro t o ho
  rw [mem_itself.1 ho, at?_nil]

theorem locates_partsAt : Locates partsAt := by
  intro t o ho
  obtain ⟨i, hi, hchild, -⟩ := mem_partsAt.1 ho
  rw [hi, at?_cons, hchild, Option.bind_some, at?_nil]

theorem locates_take_partsAt : Locates fun t => t.partsAt.take 1 :=
  fun t o ho => locates_partsAt t o (List.mem_of_mem_take ho)

theorem locates_arguments :
    Locates fun c => if c.type = "arguments" then c.partsAt else c.itself := by
  intro t o ho
  dsimp only at ho
  split at ho
  · exact locates_partsAt t o ho
  · exact locates_itself t o ho

/-- An operand is a part, or it is picked in one of the fields. -/
theorem mem_operandsAt_cases {t : Tree} {o : Address × Tree} (h : o ∈ t.operandsAt) :
    o ∈ t.partsAt ∨ ∃ name select, Locates select ∧ o ∈ t.inFieldAt name select := by
  have hfield {name : String} (ho : o ∈ t.inFieldAt name itself) :
      o ∈ t.partsAt ∨ ∃ name select, Locates select ∧ o ∈ t.inFieldAt name select :=
    .inr ⟨name, itself, locates_itself, ho⟩
  have hfields {name name' : String} (ho : o ∈ t.inFieldAt name itself ++ t.inFieldAt name' itself) :
      o ∈ t.partsAt ∨ ∃ name select, Locates select ∧ o ∈ t.inFieldAt name select := by
    rcases List.mem_append.1 ho with ho | ho
    · exact hfield ho
    · exact hfield ho
  rw [operandsAt] at h
  split at h
  · exact .inl h
  · exact .inl h
  · exact .inl h
  · exact .inl h
  · exact .inl (List.mem_of_mem_take h)
  · rcases List.mem_append.1 h with h | h
    · exact hfields h
    · exact .inr ⟨_, _, locates_take_partsAt, h⟩
  · rcases List.mem_append.1 h with h | h
    · exact hfield h
    · exact .inr ⟨_, _, locates_arguments, h⟩
  · exact hfields h
  · exact hfields h
  · exact hfields h
  · exact hfield h
  · exact hfields h
  all_goals cases h

/-- An operand stands at its address, which leads into a child first. -/
theorem exists_of_mem_operandsAt {t : Tree} {o : Address × Tree} (h : o ∈ t.operandsAt) :
    ∃ i c b, t.children[i]? = some c ∧ o.1 = i :: b ∧ c.at? b = some o.2 := by
  rcases mem_operandsAt_cases h with h | ⟨name, select, hselect, h⟩
  · obtain ⟨i, hi, hchild, -⟩ := mem_partsAt.1 h
    exact ⟨i, o.2, [], hchild, hi, rfl⟩
  · obtain ⟨i, c, b, hchild, -, -, hi, hb⟩ := exists_of_mem_inFieldAt h
    exact ⟨i, c, b, hchild, hi, hselect c _ hb⟩

theorem at?_of_mem_operandsAt {t : Tree} {o : Address × Tree} (h : o ∈ t.operandsAt) :
    t.at? o.1 = some o.2 := by
  obtain ⟨i, c, b, hchild, hi, hb⟩ := exists_of_mem_operandsAt h
  rw [hi, at?_cons, hchild, Option.bind_some, hb]

/-- The trees that conversion comes to stand somewhere in the tree. -/
theorem at?_of_reaches {t u : Tree} (h : t.Reaches u) : ∃ a, t.at? a = some u := by
  induction h with
  | root t => exact ⟨[], rfl⟩
  | @operand t u o ho _ ih =>
    obtain ⟨b, hb⟩ := ih
    exact ⟨o.1 ++ b, by rw [at?_append, at?_of_mem_operandsAt ho, Option.bind_some, hb]⟩

theorem size_le_of_at? {t s : Tree} {a : Address} (h : t.at? a = some s) : s.size ≤ t.size := by
  induction a generalizing t with
  | nil =>
    cases h
    exact Nat.le_refl _
  | cons i a ih =>
    obtain ⟨c, hc, h⟩ := Option.bind_eq_some_iff.1 h
    exact Nat.le_trans (ih h) (Nat.le_of_lt (size_lt_of_mem_children (List.mem_of_getElem? hc)))

/-- An operand is smaller than the tree. -/
theorem size_lt_of_mem_operandsAt {t : Tree} {o : Address × Tree} (h : o ∈ t.operandsAt) :
    o.2.size < t.size := by
  obtain ⟨i, c, b, hchild, -, hb⟩ := exists_of_mem_operandsAt h
  exact Nat.lt_of_le_of_lt (size_le_of_at? hb)
    (size_lt_of_mem_children (List.mem_of_getElem? hchild))

/-! ## The order of the operands -/

end Tree

/-- A relation between addresses that holds between two children, the first one first, and goes over from
the addresses in a child to those from the parent on. -/
structure Address.Inherited (R : Address → Address → Prop) : Prop where
  siblings : ∀ {i j : Nat}, i < j → ∀ a b, R (i :: a) (j :: b)
  cons : ∀ {a b : Address}, R a b → ∀ i, R (i :: a) (i :: b)

namespace Tree

/-- The field names under which conversion asks for children, in the order in which the nodes made of them
become children. -/
def fetched : Form → List String
  | .ifStatement => ["condition", "consequence", "alternative"]
  | .call => ["function", "arguments"]
  | .member => ["object", "property"]
  | .subscript => ["object", "index"]
  | .binary => ["left", "right"]
  | .unary => ["argument"]
  | .method => ["parameters", "body"]
  | .program | .block | .expressionStatement | .parenthesized | .super | .string | .number | .bool _
  | .null | .identifier | .other => []

def place? (t : Tree) (name : String) : Option Nat := t.children.findIdx? (inField name)

theorem place?_of_mem_inFieldAt {t : Tree} {name : String} {select : Tree → List (Address × Tree)}
    {o : Address × Tree} (h : o ∈ t.inFieldAt name select) :
    ∃ i b, t.place? name = some i ∧ o.1 = i :: b := by
  rw [inFieldAt] at h
  rw [place?, List.findIdx?_eq_fst_find?_zipIdx]
  split at h
  · cases h
  · rename_i c i hfind
    obtain ⟨⟨b, s⟩, -, rfl⟩ := List.mem_map.1 h
    rw [hfind]
    exact ⟨i, b, rfl, rfl⟩

section Pairwise

variable {R : Address → Address → Prop} (hR : Address.Inherited R)
include hR

theorem pairwise_partsAt (t : Tree) : t.partsAt.Pairwise fun o o' => R o.1 o'.1 := by
  rw [partsAt, List.pairwise_map]
  apply ((pairwise_lt_zipIdx t.children).filter _).imp
  intro c c' h
  exact hR.siblings h [] []

theorem pairwise_inFieldAt (t : Tree) (name : String) {select : Tree → List (Address × Tree)}
    (h : ∀ c, (select c).Pairwise fun o o' => R o.1 o'.1) :
    (t.inFieldAt name select).Pairwise fun o o' => R o.1 o'.1 := by
  rw [inFieldAt]
  split
  · exact List.Pairwise.nil
  · rename_i c i _
    rw [under, List.pairwise_map]
    exact (h c).imp fun hab => hR.cons hab i

omit hR in
theorem pairwise_itself (t : Tree) : t.itself.Pairwise fun o o' => R o.1 o'.1 :=
  List.pairwise_singleton _ _

omit hR in
/-- What is picked in two fields is related if the children there are. -/
theorem rel_inFieldAt {t : Tree} {name name' : String} {select select' : Tree → List (Address × Tree)}
    (h : ∀ i ∈ t.place? name, ∀ j ∈ t.place? name', ∀ a b, R (i :: a) (j :: b))
    {o o' : Address × Tree} (ho : o ∈ t.inFieldAt name select) (ho' : o' ∈ t.inFieldAt name' select') :
    R o.1 o'.1 := by
  obtain ⟨i, a, hi, ha⟩ := place?_of_mem_inFieldAt ho
  obtain ⟨j, b, hj, hb⟩ := place?_of_mem_inFieldAt ho'
  rw [ha, hb]
  exact h i hi j hj a b

theorem pairwise_two_fields (t : Tree) {name name' : String}
    {select select' : Tree → List (Address × Tree)}
    (hfields : ∀ i ∈ t.place? name, ∀ j ∈ t.place? name', ∀ a b, R (i :: a) (j :: b))
    (h : ∀ c, (select c).Pairwise fun o o' => R o.1 o'.1)
    (h' : ∀ c, (select' c).Pairwise fun o o' => R o.1 o'.1) :
    (t.inFieldAt name select ++ t.inFieldAt name' select').Pairwise fun o o' => R o.1 o'.1 := by
  rw [List.pairwise_append]
  refine ⟨pairwise_inFieldAt hR t name h, pairwise_inFieldAt hR t name' h', ?_⟩
  intro o ho o' ho'
  exact rel_inFieldAt hfields ho ho'

/-- The operands are related one to the next if the children that are asked for by name are. -/
theorem pairwise_operandsAt_of {t : Tree}
    (h : (fetched t.form).Pairwise fun name name' =>
      ∀ i ∈ t.place? name, ∀ j ∈ t.place? name', ∀ a b, R (i :: a) (j :: b)) :
    t.operandsAt.Pairwise fun o o' => R o.1 o'.1 := by
  have htake (c : Tree) : (c.partsAt.take 1).Pairwise fun o o' => R o.1 o'.1 :=
    (pairwise_partsAt hR c).sublist (List.take_sublist 1 _)
  unfold operandsAt
  cases hform : t.form with
  | program | block | parenthesized | other => exact pairwise_partsAt hR t
  | expressionStatement => exact htake t
  | ifStatement =>
    simp only [hform, fetched, List.pairwise_cons, List.mem_cons, List.not_mem_nil, or_false,
      forall_eq_or_imp, forall_eq] at h
    obtain ⟨⟨hthen, helse⟩, hthen', -⟩ := h
    rw [List.pairwise_append]
    refine ⟨pairwise_two_fields hR t hthen pairwise_itself pairwise_itself,
      pairwise_inFieldAt hR t _ htake, ?_⟩
    intro o ho o' ho'
    rcases List.mem_append.1 ho with ho | ho
    · exact rel_inFieldAt helse ho ho'
    · exact rel_inFieldAt hthen' ho ho'
  | call =>
    simp only [hform, fetched, List.pairwise_cons, List.mem_singleton, forall_eq] at h
    apply pairwise_two_fields hR t h.1 pairwise_itself
    intro c
    split
    · exact pairwise_partsAt hR c
    · exact pairwise_itself c
  | member | subscript | binary | method =>
    simp only [hform, fetched, List.pairwise_cons, List.mem_singleton, forall_eq] at h
    exact pairwise_two_fields hR t h.1 pairwise_itself pairwise_itself
  | unary => exact pairwise_inFieldAt hR t _ pairwise_itself
  | super | string | number | bool | null | identifier => exact List.Pairwise.nil

end Pairwise

theorem inherited_apart : Address.Inherited Address.Apart where
  siblings h a b := Address.apart_cons_of_ne (Nat.ne_of_lt h) a b
  cons h i := h.cons i

/-- A child has one field name, so the children with two names are not the same. -/
theorem place?_ne {t : Tree} {name name' : String} (hname : name ≠ name') {i j : Nat}
    (hi : i ∈ t.place? name) (hj : j ∈ t.place? name') : i ≠ j := by
  rintro rfl
  obtain ⟨hlt, hfield, -⟩ := List.findIdx?_eq_some_iff_getElem.1 hi
  obtain ⟨_, hfield', -⟩ := List.findIdx?_eq_some_iff_getElem.1 hj
  rw [inField, beq_iff_eq] at hfield hfield'
  exact hname (Option.some.inj (hfield.symm.trans hfield'))

/-- No operand stands inside another one, and none is listed twice. -/
theorem pairwise_operandsAt (t : Tree) :
    t.operandsAt.Pairwise fun o o' => Address.Apart o.1 o'.1 := by
  have hnames : (fetched t.form).Nodup := by
    unfold fetched
    split <;> decide
  apply pairwise_operandsAt_of inherited_apart
  apply hnames.imp
  intro name name' hname i hi j hj a b
  exact Address.apart_cons_of_ne (place?_ne hname hi hj) a b

end Tree

end ElementLint
