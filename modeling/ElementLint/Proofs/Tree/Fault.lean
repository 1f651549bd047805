import ElementLint.Lint.Load
import ElementLint.Proofs.Order.StableSort
import ElementLint.Proofs.Tree.Preorder
import ElementLint.Proofs.Tree.Problem

/-!
# Topmost faults

A fault is a node at which the grammar failed: a piece of text that fits nowhere, or a token that was put
in. `TopmostFault t a s` says that the address `a` leads to a fault `s` below no other one, and `faults`
lists the topmost faults of a tree, those in a later child first.

The search for problems goes on only below nodes that are flagged. If the flags are right it finds the
topmost faults, each once and in this order (`inPending_eq`), so that the problems of a tree are these
faults, sorted by position.
-/

namespace ElementLint

/-- The grammar failed at a node: its text fits nowhere, or it was put in. -/
def Label.IsFault (l : Label) : Prop := l.type = "ERROR" ∨ l.missing = true

instance (l : Label) : Decidable l.IsFault := inferInstanceAs (Decidable (_ ∨ _))

/-- The order of a visit that takes each node before those below it, and the last child first. -/
def Address.LastFirst (a b : Address) : Prop := List.Lex (fun i j => j < i) a b

namespace Tree

/-- The grammar failed at the root or at a node below it. -/
def HasFault (t : Tree) : Prop := ∃ a s, t.at? a = some s ∧ s.label.IsFault

/-- The flags of a tree are right: a node has the flag if the grammar failed at it or below it, and only
then. -/
def FlagsRight (t : Tree) : Prop :=
  ∀ a s, t.at? a = some s → (s.label.hasError = true ↔ s.HasFault)

theorem hasFault_iff {t : Tree} : t.HasFault ↔ ∃ o ∈ t.occurrences, o.2.label.IsFault := by
  constructor
  · rintro ⟨a, s, hs, h⟩
    exact ⟨(a, s), mem_occurrences.2 hs, h⟩
  · rintro ⟨⟨a, s⟩, hs, h⟩
    exact ⟨a, s, mem_occurrences.1 hs, h⟩

instance (t : Tree) : Decidable t.HasFault := decidable_of_iff _ hasFault_iff.symm

theorem flagsRight_iff {t : Tree} :
    t.FlagsRight ↔ ∀ o ∈ t.occurrences, (o.2.label.hasError = true ↔ o.2.HasFault) := by
  constructor
  · exact fun h o ho => h o.1 o.2 (mem_occurrences.1 ho)
  · exact fun h a s hs => h (a, s) (mem_occurrences.2 hs)

instance (t : Tree) : Decidable t.FlagsRight := decidable_of_iff _ flagsRight_iff.symm

/-- The address leads to a fault, and past no other one. -/
structure TopmostFault (t : Tree) (a : Address) (s : Tree) : Prop where
  at? : t.at? a = some s
  fault : s.label.IsFault
  topmost : ∀ b c u, a = b ++ c → c ≠ [] → t.at? b = some u → ¬u.label.IsFault

mutual

/-- The topmost faults of a tree with their addresses, those in a later child first. -/
def faults : Tree → List (Address × Tree)
  | .node label children =>
    if label.IsFault then [([], .node label children)] else faultsFrom 0 children

/-- The topmost faults of some trees, which are the children from the place `i` on. -/
def faultsFrom (i : Nat) : List Tree → List (Address × Tree)
  | [] => []
  | t :: ts => faultsFrom (i + 1) ts ++ under i (faults t)

end

theorem faultsFrom_eq (i : Nat) (ts : List Tree) :
    faultsFrom i ts = (ts.zipIdx i).reverse.flatMap fun c => under c.2 c.1.faults := by
  induction ts generalizing i with
  | nil => rfl
  | cons t ts ih => simp [faultsFrom, ih, List.zipIdx_cons]

theorem faults_of_isFault {t : Tree} (h : t.label.IsFault) : t.faults = [([], t)] := by
  cases t
  rw [label_node] at h
  rw [faults, if_pos h]

theorem faults_of_not_isFault {t : Tree} (h : ¬t.label.IsFault) :
    t.faults = t.children.zipIdx.reverse.flatMap fun c => under c.2 c.1.faults := by
  cases t
  rw [label_node] at h
  rw [faults, if_neg h, faultsFrom_eq, children_node]

theorem topmostFault_nil {t s : Tree} : t.TopmostFault [] s ↔ s = t ∧ t.label.IsFault := by
  constructor
  · intro h
    cases h.at?
    exact ⟨rfl, h.fault⟩
  · rintro ⟨rfl, h⟩
    refine ⟨at?_nil s, h, ?_⟩
    intro b c u happend hc
    exact absurd (List.append_eq_nil_iff.1 happend.symm).2 hc

/-- A topmost fault below the root is one of a child, and the root is none. -/
theorem topmostFault_cons {t s : Tree} {i : Nat} {a : Address} :
    t.TopmostFault (i :: a) s ↔
      ¬t.label.IsFault ∧ ∃ c, t.children[i]? = some c ∧ c.TopmostFault a s := by
  constructor
  · intro h
    obtain ⟨c, hc, hs⟩ := Option.bind_eq_some_iff.1 h.at?
    refine ⟨h.topmost [] (i :: a) t rfl (List.cons_ne_nil i a) (at?_nil t), c, hc, hs, h.fault, ?_⟩
    intro b d u happend hd hu
    refine h.topmost (i :: b) d u (by rw [happend, List.cons_append]) hd ?_
    rw [at?_cons, hc, Option.bind_some, hu]
  · rintro ⟨hroot, c, hc, h⟩
    refine ⟨by rw [at?_cons, hc, Option.bind_some, h.at?], h.fault, ?_⟩
    intro b d u happend hd hu
    cases b with
    | nil =>
      cases hu
      exact hroot
    | cons j b =>
      obtain ⟨rfl, hrest⟩ := List.cons.inj happend
      rw [at?_cons, hc, Option.bind_some] at hu
      exact h.topmost b d u hrest hd hu

/-- Exactly the topmost faults are listed. -/
theorem mem_faults {t s : Tree} {a : Address} : (a, s) ∈ t.faults ↔ t.TopmostFault a s := by
  induction a generalizing t with
  | nil =>
    rw [topmostFault_nil]
    by_cases h : t.label.IsFault
    · simp [faults_of_isFault h, h]
    · simp [faults_of_not_isFault h, mem_under, h]
  | cons i a ih =>
    rw [topmostFault_cons]
    by_cases h : t.label.IsFault
    · simp [faults_of_isFault h, h]
    · simp [faults_of_not_isFault h, mem_under, h, ih, List.mem_zipIdx_iff_getElem?]

/-- The topmost faults are listed as a visit meets them that takes the last child first. -/
theorem pairwise_faults (t : Tree) : t.faults.Pairwise fun o o' => o.1.LastFirst o'.1 := by
  induction t using inductionOn with
  | step t ih =>
    by_cases h : t.label.IsFault
    · rw [faults_of_isFault h]
      exact List.pairwise_singleton _ _
    · rw [faults_of_not_isFault h, List.pairwise_flatMap]
      constructor
      · intro c hc
        have hchild := List.fst_mem_of_mem_zipIdx (List.mem_reverse.1 hc)
        rw [under, List.pairwise_map]
        exact (ih c.1 (size_lt_of_mem_children hchild)).imp .cons
      · rw [List.pairwise_reverse]
        apply (pairwise_lt_zipIdx t.children).imp
        intro c c' hlt o ho o' ho'
        obtain ⟨a, ha, -⟩ := mem_under.1 ho
        obtain ⟨a', ha', -⟩ := mem_under.1 ho'
        rw [Address.LastFirst, ha, ha']
        exact .rel hlt

theorem not_lastFirst_self (a : Address) : ¬a.LastFirst a := by
  induction a with
  | nil => nofun
  | cons i a ih =>
    intro h
    cases h with
    | cons h => exact ih h
    | rel h => exact Nat.lt_irrefl i h

theorem nodup_faults (t : Tree) : (t.faults.map Prod.fst).Nodup := by
  rw [List.Nodup, List.pairwise_map]
  apply t.pairwise_faults.imp
  intro o o' h heq
  exact not_lastFirst_self o'.1 (heq ▸ h)

/-- A tree in which the grammar failed has a topmost fault. -/
theorem exists_topmostFault {t : Tree} (h : t.HasFault) : ∃ a s, t.TopmostFault a s := by
  obtain ⟨a, s, hs, hfault⟩ := h
  induction a generalizing t with
  | nil =>
    cases hs
    exact ⟨[], s, topmostFault_nil.2 ⟨rfl, hfault⟩⟩
  | cons i a ih =>
    by_cases hroot : t.label.IsFault
    · exact ⟨[], t, topmostFault_nil.2 ⟨rfl, hroot⟩⟩
    · obtain ⟨c, hc, hs⟩ := Option.bind_eq_some_iff.1 hs
      obtain ⟨b, u, hu⟩ := ih hs
      exact ⟨i :: b, u, topmostFault_cons.2 ⟨hroot, c, hc, hu⟩⟩

theorem faults_eq_nil_iff {t : Tree} : t.faults = [] ↔ ¬t.HasFault := by
  constructor
  · intro h hfault
    obtain ⟨a, s, hs⟩ := exists_topmostFault hfault
    have hmem := mem_faults.2 hs
    rw [h] at hmem
    cases hmem
  · intro h
    rw [List.eq_nil_iff_forall_not_mem]
    rintro ⟨a, s⟩ hs
    have htopmost := mem_faults.1 hs
    exact h ⟨a, s, htopmost.at?, htopmost.fault⟩

theorem FlagsRight.root {t : Tree} (h : t.FlagsRight) : t.label.hasError = true ↔ t.HasFault :=
  h [] t (at?_nil t)

theorem FlagsRight.child {t c : Tree} (h : t.FlagsRight) (hc : c ∈ t.children) : c.FlagsRight := by
  intro a s hs
  obtain ⟨i, hi⟩ := List.getElem?_of_mem hc
  exact h (i :: a) s (by rw [at?_cons, hi, Option.bind_some, hs])

end Tree

namespace Problem

def ofFault (s : Source) (l : Label) : Problem :=
  if l.type = "ERROR" then unexpected s l else missing s l

@[simp] theorem position_ofFault (s : Source) (l : Label) : (ofFault s l).position = s.locate l := by
  rw [ofFault]
  split <;> rfl

theorem at?_of_isFault {s : Source} {l : Label} (h : l.IsFault) : at? s l = some (ofFault s l) := by
  rw [at?, ofFault]
  split
  · rfl
  · rename_i htype
    rw [if_pos (h.resolve_left htype)]

theorem at?_eq_none_iff {s : Source} {l : Label} : at? s l = none ↔ ¬l.IsFault := by
  rw [at?, Label.IsFault]
  split
  · simp_all
  · split <;> simp_all

def ofFaults (s : Source) (t : Tree) : List Problem := t.faults.map fun o => ofFault s o.2.label

/-- Below a node that is no fault, the problems are those of the children from the last one on. -/
theorem ofFaults_of_not_isFault (s : Source) {t : Tree} (h : ¬t.label.IsFault) :
    ofFaults s t = t.children.reverse.flatMap (ofFaults s) := by
  have hchild (c : Tree × Nat) :
      (Tree.under c.2 c.1.faults).map (fun o => ofFault s o.2.label) = ofFaults s c.1 := by
    rw [Tree.under, List.map_map]
    rfl
  rw [ofFaults, Tree.faults_of_not_isFault h, List.map_flatMap]
  simp only [hchild]
  rw [← List.flatMap_map Prod.fst (ofFaults s), List.map_reverse, List.zipIdx_map_fst]

/-- With right flags the search finds the problems of the topmost faults of each tree in turn: a tree that
is passed by has no fault. -/
theorem inPending_eq (s : Source) {pending : List Tree} (h : ∀ t ∈ pending, t.FlagsRight) :
    inPending s pending = pending.flatMap (ofFaults s) := by
  fun_induction inPending s pending with
  | case1 => rfl
  | case2 t rest p hp ih =>
    obtain ⟨-, hrest⟩ := List.forall_mem_cons.1 h
    have hfault : t.label.IsFault := by
      by_contra hnot
      rw [at?_eq_none_iff.2 hnot] at hp
      cases hp
    cases (at?_of_isFault hfault).symm.trans hp
    rw [ih hrest, List.flatMap_cons, ofFaults, Tree.faults_of_isFault hfault]
    rfl
  | case3 t rest hp ih =>
    obtain ⟨ht, hrest⟩ := List.forall_mem_cons.1 h
    have hnot := at?_eq_none_iff.1 hp
    rw [List.flatMap_cons]
    split at ih
    · rename_i hflag
      rw [if_pos hflag, ih, List.flatMap_append, ofFaults_of_not_isFault s hnot]
      intro c hc
      rcases List.mem_append.1 hc with hc | hc
      · exact ht.child (List.mem_reverse.1 hc)
      · exact hrest c hc
    · rename_i hflag
      rw [if_neg hflag, ih hrest, ofFaults, Tree.faults_eq_nil_iff.2 (mt ht.root.2 hflag)]
      rfl

/-- Problems in order: by position, and at one position as they were found. -/
structure InOrder (found listed : List Problem) : Prop where
  perm : listed.Perm found
  sorted : listed.Pairwise fun p q => p.position.le q.position = true
  stable : ∀ position : Position,
    listed.filter (fun p => p.position = position) = found.filter fun p => p.position = position

theorem inOrder_mergeSort (found : List Problem) :
    InOrder found (found.mergeSort fun p q => p.position.le q.position) where
  perm := List.mergeSort_perm found _
  sorted := by
    apply List.pairwise_mergeSort
    · exact fun _ _ _ => Position.le_trans
    · exact fun _ _ => Position.le_total _ _
  stable := by
    intro position
    apply filter_mergeSort_of_tied
    · exact fun _ _ _ => Position.le_trans
    · exact fun _ _ => Position.le_total _ _
    · intro p q hp hq
      rw [of_decide_eq_true hp, of_decide_eq_true hq]
      exact Position.le_refl position

theorem ofTree_eq_mergeSort (s : Source) {t : Tree} (h : t.FlagsRight) :
    ofTree s t = (ofFaults s t).mergeSort fun p q => p.position.le q.position := by
  have hpending : inPending s [t] = ofFaults s t := by
    rw [inPending_eq s (List.forall_mem_singleton.2 h), List.flatMap_singleton]
  rw [ofTree]
  split
  · rw [hpending]
  · rename_i hflag
    rw [ofFaults, Tree.faults_eq_nil_iff.2 (mt h.root.2 hflag)]
    exact List.mergeSort_nil.symm

theorem problems_of_ofBytes {reader : Reader} {path : Option Text} {bytes : List UInt8} {tree : Tree}
    {program : Program} (htree : reader.grammar bytes = some tree)
    (h : Program.ofBytes reader path bytes = .ok program) :
    program.problems = ofTree (.ofBytes bytes) tree := by
  rw [Program.ofBytes, htree] at h
  dsimp only at h
  repeat' split at h
  all_goals cases h
  rfl

/-- The problems of a tree with right flags are its topmost faults, one problem for each, in order. There
are none only if the grammar failed nowhere. These are the problems of the program made from the tree. -/
theorem ofTree_eq_topmost_faults (bytes : List UInt8) (tree : Tree) (h : tree.FlagsRight) :
    ∃ faults : List (Address × Tree),
      (∀ a s, (a, s) ∈ faults ↔ tree.TopmostFault a s) ∧
      (faults.map Prod.fst).Nodup ∧
      (faults.Pairwise fun o o' => o.1.LastFirst o'.1) ∧
      (∀ o ∈ faults, (ofFault (.ofBytes bytes) o.2.label).position =
        (Source.ofBytes bytes).locate o.2.label) ∧
      InOrder (faults.map fun o => ofFault (.ofBytes bytes) o.2.label) (ofTree (.ofBytes bytes) tree) ∧
      (ofTree (.ofBytes bytes) tree = [] ↔ ¬tree.HasFault) ∧
      ∀ (reader : Reader) path program, reader.grammar bytes = some tree →
        Program.ofBytes reader path bytes = .ok program →
        program.problems = ofTree (.ofBytes bytes) tree := by
  have hsorted := ofTree_eq_mergeSort (.ofBytes bytes) h
  refine ⟨tree.faults, fun a s => Tree.mem_faults, tree.nodup_faults, tree.pairwise_faults, ?_, ?_, ?_, ?_⟩
  · exact fun o _ => position_ofFault _ _
  · rw [hsorted]
    exact inOrder_mergeSort _
  · rw [hsorted, ← List.length_eq_zero_iff, List.length_mergeSort, List.length_eq_zero_iff, ofFaults,
      List.map_eq_nil_iff, Tree.faults_eq_nil_iff]
  · exact fun reader path program htree hload => problems_of_ofBytes htree hload

def faultyBytes : List UInt8 := Utf8.encode ") ]"

/-- The tree of that text: each bracket fits nowhere, a semicolon was put in before the second one, and
another token inside it. -/
def faultyTree : Tree :=
  .node { type := "program", start := 0, stop := 3, row := 0, column := 0, named := true,
          hasError := true } [
    .node { type := "ERROR", start := 0, stop := 1, row := 0, column := 0, named := true,
            hasError := true } [],
    .node { type := ";", start := 2, stop := 2, row := 0, column := 2, missing := true,
            hasError := true } [],
    .node { type := "ERROR", start := 2, stop := 3, row := 0, column := 2, named := true,
            hasError := true } [
      .node { type := "identifier", start := 2, stop := 2, row := 0, column := 2, named := true,
              missing := true, hasError := true } []]]

/-- Every text has that tree. -/
def faultyReader : Reader where
  grammar _ := some faultyTree

/-- Two faults at one position, of which the one in the later child comes first, and a fault that is not
topmost. -/
theorem ofTree_eq_topmost_faults_nested :
    faultyTree.FlagsRight ∧
      ∃ faults : List (Address × Tree),
        (∀ a s, (a, s) ∈ faults ↔ faultyTree.TopmostFault a s) ∧
        (∃ s, ([2], s) ∈ faults) ∧ (∃ s, ([1], s) ∈ faults) ∧ (∀ s, ([2, 0], s) ∉ faults) ∧
        InOrder (faults.map fun o => ofFault (.ofBytes faultyBytes) o.2.label)
          (ofTree (.ofBytes faultyBytes) faultyTree) ∧
        ∃ program, Program.ofBytes faultyReader none faultyBytes = .ok program ∧
          program.problems = ofTree (.ofBytes faultyBytes) faultyTree ∧ program.problems ≠ [] := by
  have hflags : faultyTree.FlagsRight := by decide
  obtain ⟨faults, hmem, -, -, -, horder, hempty, hprogram⟩ :=
    ofTree_eq_topmost_faults faultyBytes faultyTree hflags
  have hproblems := hprogram faultyReader none _ rfl rfl
  refine ⟨hflags, faults, hmem, ?_, ?_, ?_, horder, _, rfl, hproblems, ?_⟩
  · exact ⟨_, (hmem _ _).2 (Tree.mem_faults.1 List.mem_cons_self)⟩
  · exact ⟨_, (hmem _ _).2 (Tree.mem_faults.1 (List.mem_cons_of_mem _ List.mem_cons_self))⟩
  · intro s hs
    exact ((hmem _ _).1 hs).topmost [2] [0] _ rfl (List.cons_ne_nil 0 []) rfl (.inl rfl)
  · rw [hproblems, ne_eq, hempty, not_not]
    decide

end Problem

end ElementLint
