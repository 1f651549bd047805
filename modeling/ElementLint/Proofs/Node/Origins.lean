import ElementLint.Proofs.Node.Conversion
import ElementLint.Proofs.Tree.Operands

/-!
# Origins of nodes

`origins v t` lists the addresses in `t` of the trees that the nodes come from, in the order in which the
walk visits the nodes. A parenthesised expression is no origin, since its node is that of the expression
inside it.

What conversion does at one root is said once, by `convert_wrapper` and `built_of_convert`: the node of a
tree stands where the tree starts, and its children are what becomes of the kept operands. By induction
the walk visits what becomes of the origins, one after the other (`forall₂_origins`), and no tree is the
origin of two nodes (`nodup_origins`).
-/

namespace ElementLint

open Attempt

namespace Tree

/-- Whether a tree is parentheses around one expression. -/
def isWrapper (t : Tree) : Bool := t.form = .parenthesized && t.parts.length == 1

/-- Whether a tree is a call, and not a tagged template. -/
def IsCall (t : Tree) : Prop :=
  t.form = .call ∧ ∀ c, t.child? "arguments" = some c → c.type = "arguments"

end Tree

namespace Node

/-- Whether a tree becomes a block. -/
def becomesBlock (v : View) (t : Tree) : Bool :=
  match convert v t with
  | .ok (.block _ _) => true
  | _ => false

/-- The operands whose nodes become children: all of them, but for the body of a method that becomes no
block. -/
def keptAt (v : View) (t : Tree) : List (Address × Tree) :=
  if t.form = .method then
    t.inFieldAt "parameters" Tree.itself ++
      t.inFieldAt "body" fun c => if becomesBlock v c then c.itself else []
  else t.operandsAt

theorem keptAt_sublist (v : View) (t : Tree) : (keptAt v t).Sublist t.operandsAt := by
  rw [keptAt]
  split
  · rename_i hform
    rw [Tree.operandsAt, hform]
    apply (List.Sublist.refl _).append
    rw [Tree.inFieldAt, Tree.inFieldAt]
    split
    · exact List.Sublist.refl _
    · rename_i c i _
      split
      · exact List.Sublist.refl _
      · exact List.nil_sublist _
  · exact List.Sublist.refl _

/-- The addresses of the trees that the nodes come from, in the order of the walk. -/
def origins (v : View) (t : Tree) : List Address :=
  (if t.isWrapper then [] else [[]]) ++
    (keptAt v t).attach.flatMap fun o => (origins v o.1.2).map (o.1.1 ++ ·)
termination_by t.size
decreasing_by exact Tree.size_lt_of_mem_operandsAt ((keptAt_sublist v t).subset o.2)

theorem origins_eq (v : View) (t : Tree) :
    origins v t = (if t.isWrapper then [] else [[]]) ++
      (keptAt v t).flatMap fun o => (origins v o.2).map (o.1 ++ ·) := by
  have hflat := List.flatMap_subtype (l := (keptAt v t).attach)
    (f := fun o => (origins v o.1.2).map (o.1.1 ++ ·)) (g := fun o => (origins v o.2).map (o.1 ++ ·))
    fun _ _ => rfl
  rw [origins, hflat, List.unattach_attach]

/-! ## One root -/

section Root

variable {v : View} {self : Tree → Converted Node} {t : Tree}

theorem forall₂_parts {ns : List Node} (h : t.parts.mapM self = .ok ns) :
    List.Forall₂ (fun o m => self o.2 = .ok m) t.partsAt ns := by
  rw [← Tree.map_snd_partsAt, mapM_eq_ok_iff, List.forall₂_map_left_iff] at h
  exact h

theorem forall₂_inFieldAt_iff {name : String} {select : Tree → List (Address × Tree)}
    {ns : List Node} :
    List.Forall₂ (fun o m => self o.2 = .ok m) (t.inFieldAt name select) ns ↔
      List.Forall₂ (fun s m => self s = .ok m)
        ((t.child? name).toList.flatMap fun c => (select c).map Prod.snd) ns := by
  rw [← Tree.map_snd_inFieldAt, List.forall₂_map_left_iff]

theorem forall₂_field {name : String} {x : Option Node} (h : ofField self t name = .ok x) :
    List.Forall₂ (fun o m => self o.2 = .ok m) (t.inFieldAt name Tree.itself) x.toList := by
  rw [forall₂_inFieldAt_iff]
  rw [ofField] at h
  cases hchild : t.child? name with
  | none =>
    rw [hchild] at h
    cases h
    exact .nil
  | some s =>
    rw [hchild] at h
    obtain ⟨m, hm, rfl⟩ := map_eq_ok_iff.1 h
    exact .cons hm .nil

theorem forall₂_alternative {x : Option Node} (h : alternateOf self t = .ok x) :
    List.Forall₂ (fun o m => self o.2 = .ok m)
      (t.inFieldAt "alternative" fun clause => clause.partsAt.take 1) x.toList := by
  rw [forall₂_inFieldAt_iff]
  rw [alternateOf] at h
  cases hchild : t.child? "alternative" with
  | none =>
    rw [hchild] at h
    cases h
    exact .nil
  | some clause =>
    rw [hchild] at h
    dsimp only at h
    rw [Option.toList_some, List.flatMap_singleton, List.map_take, Tree.map_snd_partsAt]
    cases hparts : clause.parts with
    | nil =>
      rw [hparts] at h
      cases h
      exact .nil
    | cons s rest =>
      rw [hparts] at h
      obtain ⟨m, hm, rfl⟩ := map_eq_ok_iff.1 h
      exact .cons hm .nil

theorem filterMap_id_cons (x : Option Node) (xs : List (Option Node)) :
    (x :: xs).filterMap id = x.toList ++ xs.filterMap id := by
  cases x <;> rfl

/-- What becomes of a root: a node that stands where the tree starts and is a call if the tree is one, and
whose children come from some operands. -/
structure Built (v : View) (turn : Tree → Converted Node) (t : Tree) (kept : List (Address × Tree))
    (n : Node) : Prop where
  pos : n.pos = v.locate t.label
  call : n.kind = .callExpression ↔ t.IsCall
  children : List.Forall₂ (fun o m => turn o.2 = .ok m) kept n.children

theorem not_isCall (h : t.form ≠ .call) : ¬t.IsCall := fun hcall => h hcall.1

theorem built_two_fields {name name' : String} {x y : Option Node} {n : Node}
    (hpos : n.pos = v.locate t.label) (hcall : n.kind = .callExpression ↔ t.IsCall)
    (hslots : n.slots = [x, y]) (hx : ofField self t name = .ok x)
    (hy : ofField self t name' = .ok y) :
    Built v self t (t.inFieldAt name Tree.itself ++ t.inFieldAt name' Tree.itself) n := by
  refine ⟨hpos, hcall, ?_⟩
  rw [children, hslots, filterMap_id_cons, filterMap_id_cons, List.filterMap_nil, List.append_nil]
  exact List.rel_append (forall₂_field hx) (forall₂_field hy)

theorem built_parts {ns : List Node} {n : Node} (hpos : n.pos = v.locate t.label)
    (hcall : n.kind = .callExpression ↔ t.IsCall) (hslots : n.slots = ns.map some)
    (hns : t.parts.mapM self = .ok ns) : Built v self t t.partsAt n := by
  refine ⟨hpos, hcall, ?_⟩
  rw [children, hslots, filterMap_id_map_some]
  exact forall₂_parts hns

theorem built_call {n : Node} (hform : t.form = .call) (h : ofTreeWith v self t = .ok n) :
    Built v self t t.operandsAt n := by
  unfold ofTreeWith at h
  rw [Tree.operandsAt, hform]
  rw [hform] at h
  obtain ⟨callee, hcallee, h⟩ := bind_eq_ok_iff.1 h
  have hfunction := forall₂_field hcallee
  cases hchild : t.child? "arguments" with
  | none =>
    rw [hchild] at h
    cases h
    refine ⟨rfl, iff_of_true rfl ⟨hform, fun c hc => ?_⟩, ?_⟩
    · rw [hchild] at hc
      cases hc
    · rw [children, slots, filterMap_id_cons]
      apply List.rel_append hfunction
      rw [forall₂_inFieldAt_iff, hchild]
      exact .nil
  | some arguments =>
    rw [hchild] at h
    dsimp only at h
    split at h
    · rename_i htype
      obtain ⟨ns, hns, h⟩ := bind_eq_ok_iff.1 h
      cases h
      refine ⟨rfl, iff_of_true rfl ⟨hform, fun c hc => ?_⟩, ?_⟩
      · rw [hchild] at hc
        cases hc
        exact htype
      · rw [children, slots, filterMap_id_cons, filterMap_id_map_some]
        apply List.rel_append hfunction
        rw [forall₂_inFieldAt_iff, hchild, Option.toList_some, List.flatMap_singleton, if_pos htype,
          Tree.map_snd_partsAt]
        exact mapM_eq_ok_iff.1 hns
    · rename_i htype
      obtain ⟨template, htemplate, h⟩ := bind_eq_ok_iff.1 h
      cases h
      refine ⟨rfl, iff_of_false (by simp [kind]) fun hcall => htype (hcall.2 arguments hchild), ?_⟩
      rw [children, slots, filterMap_id_cons]
      apply List.rel_append hfunction
      rw [forall₂_inFieldAt_iff, hchild, Option.toList_some, List.flatMap_singleton, if_neg htype]
      exact .cons htemplate .nil

theorem forall₂_body {x : Option Node} (h : ofField (convert v) t "body" = .ok x) :
    List.Forall₂ (fun o m => convert v o.2 = .ok m)
      (t.inFieldAt "body" fun c => if becomesBlock v c then c.itself else [])
      (block? x).toList := by
  rw [forall₂_inFieldAt_iff]
  rw [ofField] at h
  cases hchild : t.child? "body" with
  | none =>
    rw [hchild] at h
    cases h
    exact .nil
  | some c =>
    rw [hchild] at h
    obtain ⟨m, hm, rfl⟩ := map_eq_ok_iff.1 h
    rw [Option.toList_some, List.flatMap_singleton, becomesBlock, hm]
    cases m with
    | block pos body => exact .cons hm .nil
    | _ => exact .nil

theorem built_method {n : Node} (hform : t.form = .method) (h : convert v t = .ok n) :
    Built v (convert v) t (keptAt v t) n := by
  rw [convert_eq, ofTreeWith, hform] at h
  rw [keptAt, if_pos hform]
  obtain ⟨name, -, h⟩ := bind_eq_ok_iff.1 h
  obtain ⟨body, hbody, h⟩ := bind_eq_ok_iff.1 h
  obtain ⟨params, hparams, h⟩ := bind_eq_ok_iff.1 h
  cases h
  refine ⟨rfl, iff_of_false (by simp [kind]) (not_isCall (by rw [hform]; decide)), ?_⟩
  rw [children, slots, filterMap_id_cons, filterMap_id_cons, List.filterMap_nil, List.append_nil]
  exact List.rel_append (forall₂_field hparams) (forall₂_body hbody)

theorem built_binary {n : Node} (hform : t.form = .binary) (h : convert v t = .ok n) :
    Built v (convert v) t t.operandsAt n := by
  rw [convert_binary v hform] at h
  rw [Tree.operandsAt, hform]
  obtain ⟨left, hleft, h⟩ := bind_eq_ok_iff.1 h
  obtain ⟨operator, -, h⟩ := bind_eq_ok_iff.1 h
  obtain ⟨right, hright, h⟩ := bind_eq_ok_iff.1 h
  cases h
  have hcall : ¬t.IsCall := not_isCall (by rw [hform]; decide)
  dsimp only
  rw [binaryNode]
  split
  · exact built_two_fields rfl (iff_of_false (by simp [kind]) hcall) rfl hleft hright
  · exact built_two_fields rfl (iff_of_false (by simp [kind]) hcall) rfl hleft hright

/-- Parentheses around one expression become what the expression becomes. -/
theorem convert_of_isWrapper (v : View) {p : Tree} (h : t.isWrapper = true) (hp : t.parts = [p]) :
    convert v t = convert v p := by
  rw [Tree.isWrapper, Bool.and_eq_true, decide_eq_true_eq] at h
  rw [convert_eq, ofTreeWith, h.1]
  dsimp only
  rw [hp]

theorem convert_wrapper (v : View) (h : t.isWrapper = true) :
    ∃ o, keptAt v t = [o] ∧ convert v t = convert v o.2 := by
  have hform := h
  rw [Tree.isWrapper, Bool.and_eq_true, decide_eq_true_eq, beq_iff_eq] at hform
  obtain ⟨hform, hlen⟩ := hform
  have hkept : keptAt v t = t.partsAt := by
    rw [keptAt, if_neg (by rw [hform]; decide), Tree.operandsAt, hform]
  rw [← Tree.map_snd_partsAt, List.length_map] at hlen
  obtain ⟨o, ho⟩ := List.length_eq_one_iff.1 hlen
  have hparts : t.parts = [o.2] := by rw [← Tree.map_snd_partsAt, ho, List.map_singleton]
  exact ⟨o, hkept.trans ho, convert_of_isWrapper v h hparts⟩

/-- The node of a tree that is no wrapper, and its children. -/
theorem built_of_convert {n : Node} (hwrapper : t.isWrapper = false) (h : convert v t = .ok n) :
    Built v (convert v) t (keptAt v t) n := by
  by_cases hmethod : t.form = .method
  · exact built_method hmethod h
  rw [keptAt, if_neg hmethod]
  by_cases hbinary : t.form = .binary
  · exact built_binary hbinary h
  rw [convert_eq] at h
  by_cases hcall : t.form = .call
  · exact built_call hcall h
  have hnot : ¬t.IsCall := not_isCall hcall
  rw [ofTreeWith.eq_def] at h
  rw [Tree.operandsAt.eq_def]
  cases hform : t.form with
  | method => exact absurd hform hmethod
  | binary => exact absurd hform hbinary
  | call => exact absurd hform hcall
  | program | block | other =>
    rw [hform] at h
    obtain ⟨ns, hns, h⟩ := bind_eq_ok_iff.1 h
    cases h
    exact built_parts rfl (iff_of_false (by simp [kind]) hnot) rfl hns
  | expressionStatement =>
    rw [hform] at h
    have hparts := Tree.map_snd_partsAt t
    cases hat : t.partsAt with
    | nil =>
      rw [hat, List.map_nil] at hparts
      rw [← hparts] at h
      cases h
      exact ⟨rfl, iff_of_false (by simp [kind]) hnot, .nil⟩
    | cons o rest =>
      rw [hat, List.map_cons] at hparts
      rw [← hparts] at h
      obtain ⟨m, hm, h⟩ := bind_eq_ok_iff.1 h
      cases h
      exact ⟨rfl, iff_of_false (by simp [kind]) hnot, .cons hm .nil⟩
  | parenthesized =>
    rw [hform] at h
    dsimp only at h
    split at h
    · rename_i expr hparts
      rw [Tree.isWrapper, hform, hparts] at hwrapper
      cases hwrapper
    · obtain ⟨ns, hns, h⟩ := bind_eq_ok_iff.1 h
      cases h
      exact built_parts rfl (iff_of_false (by simp [kind]) hnot) rfl hns
  | ifStatement =>
    rw [hform] at h
    obtain ⟨alternate, halternate, h⟩ := bind_eq_ok_iff.1 h
    obtain ⟨test, htest, h⟩ := bind_eq_ok_iff.1 h
    obtain ⟨consequent, hconsequent, h⟩ := bind_eq_ok_iff.1 h
    cases h
    refine ⟨rfl, iff_of_false (by simp [kind]) hnot, ?_⟩
    rw [children, slots, filterMap_id_cons, filterMap_id_cons, filterMap_id_cons,
      List.filterMap_nil, List.append_nil, ← List.append_assoc]
    exact List.rel_append (List.rel_append (forall₂_field htest) (forall₂_field hconsequent))
      (forall₂_alternative halternate)
  | member | subscript =>
    rw [hform] at h
    obtain ⟨object, hobject, h⟩ := bind_eq_ok_iff.1 h
    obtain ⟨property, hproperty, h⟩ := bind_eq_ok_iff.1 h
    cases h
    exact built_two_fields rfl (iff_of_false (by simp [kind]) hnot) rfl hobject hproperty
  | unary =>
    rw [hform] at h
    obtain ⟨operator, -, h⟩ := bind_eq_ok_iff.1 h
    obtain ⟨argument, hargument, h⟩ := bind_eq_ok_iff.1 h
    cases h
    refine ⟨rfl, iff_of_false (by simp [kind]) hnot, ?_⟩
    rw [children, slots, filterMap_id_cons, List.filterMap_nil, List.append_nil]
    exact forall₂_field hargument
  | super | null | identifier =>
    rw [hform] at h
    cases h
    exact ⟨rfl, iff_of_false (by simp [kind]) hnot, .nil⟩
  | bool b =>
    rw [hform] at h
    cases b <;> cases h <;> exact ⟨rfl, iff_of_false (by simp [kind]) hnot, .nil⟩
  | string | number =>
    rw [hform] at h
    obtain ⟨value, -, h⟩ := bind_eq_ok_iff.1 h
    cases h
    exact ⟨rfl, iff_of_false (by simp [kind]) hnot, .nil⟩

end Root

/-! ## The whole tree -/

/-- A node comes from an address if it is what the tree there becomes, and that tree is no wrapper. -/
def ComesFrom (v : View) (t : Tree) (a : Address) (m : Node) : Prop :=
  ∃ s, t.at? a = some s ∧ s.isWrapper = false ∧ convert v s = .ok m

theorem ComesFrom.of_operand {v : View} {t : Tree} {o : Address × Tree} (ho : o ∈ keptAt v t)
    {a : Address} {m : Node} (h : ComesFrom v o.2 a m) : ComesFrom v t (o.1 ++ a) m := by
  obtain ⟨s, hs, hbuilt⟩ := h
  refine ⟨s, ?_, hbuilt⟩
  rw [Tree.at?_append, Tree.at?_of_mem_operandsAt ((keptAt_sublist v t).subset ho),
    Option.bind_some, hs]

/-- A relation between members of two lists may as well know that the first is a member. -/
theorem forall₂_mem {α β : Type*} {R : α → β → Prop} {as : List α} {bs : List β}
    (h : List.Forall₂ R as bs) : List.Forall₂ (fun a b => a ∈ as ∧ R a b) as bs := by
  obtain ⟨hlen, hzip⟩ := List.forall₂_iff_zip.1 h
  refine List.forall₂_iff_zip.2 ⟨hlen, ?_⟩
  intro a b hab
  exact ⟨(List.of_mem_zip hab).1, hzip hab⟩

/-- The walk visits what becomes of the origins, one after the other. -/
theorem forall₂_origins {v : View} {t : Tree} {n : Node} (h : convert v t = .ok n) :
    List.Forall₂ (ComesFrom v t) (origins v t) n.preorder := by
  induction t using Tree.inductionOn generalizing n with
  | step t ih =>
    have hoperand {o : Address × Tree} (ho : o ∈ keptAt v t) {m : Node} (hm : convert v o.2 = .ok m) :
        List.Forall₂ (ComesFrom v t) ((origins v o.2).map (o.1 ++ ·)) m.preorder := by
      have hlt := Tree.size_lt_of_mem_operandsAt ((keptAt_sublist v t).subset ho)
      rw [List.forall₂_map_left_iff]
      exact (ih o.2 hlt hm).imp fun a m' hbuilt => hbuilt.of_operand ho
    rw [origins_eq]
    cases hwrapper : t.isWrapper with
    | true =>
      obtain ⟨o, hkept, hsame⟩ := convert_wrapper v hwrapper
      have ho : o ∈ keptAt v t := by rw [hkept]; exact List.mem_cons_self
      rw [hkept, if_pos rfl, List.nil_append, List.flatMap_singleton]
      exact hoperand ho (hsame ▸ h)
    | false =>
      rw [if_neg (by decide), preorder_eq, List.singleton_append]
      refine .cons ⟨t, rfl, hwrapper, h⟩ ?_
      have hchildren := forall₂_mem (built_of_convert hwrapper h).children
      exact List.rel_flatMap hchildren fun o m hom => hoperand hom.1 hom.2

/-- No tree is the origin of two nodes. -/
theorem nodup_origins (v : View) (t : Tree) : (origins v t).Nodup := by
  induction t using Tree.inductionOn with
  | step t ih =>
    have hsub := keptAt_sublist v t
    have hoperands : ((keptAt v t).flatMap fun o => (origins v o.2).map (o.1 ++ ·)).Nodup := by
      rw [List.nodup_flatMap]
      constructor
      · intro o ho
        have hlt := Tree.size_lt_of_mem_operandsAt (hsub.subset ho)
        exact (ih o.2 hlt).map (List.append_right_injective o.1)
      · apply ((Tree.pairwise_operandsAt t).sublist hsub).imp
        intro o o' hapart a ha ha'
        obtain ⟨b, -, rfl⟩ := List.mem_map.1 ha
        obtain ⟨b', -, hb'⟩ := List.mem_map.1 ha'
        exact hapart b b' hb'.symm
    rw [origins_eq]
    split
    · exact hoperands
    · rw [List.singleton_append, List.nodup_cons]
      refine ⟨?_, hoperands⟩
      intro hnil
      obtain ⟨o, ho, hnil⟩ := List.mem_flatMap.1 hnil
      obtain ⟨b, -, hb⟩ := List.mem_map.1 hnil
      obtain ⟨i, c, b', -, hi, -⟩ := Tree.exists_of_mem_operandsAt (hsub.subset ho)
      rw [hi] at hb
      cases hb

end Node

end ElementLint
