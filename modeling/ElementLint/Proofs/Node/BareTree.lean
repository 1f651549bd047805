import ElementLint.Proofs.Tree.Bare

/-!
# Comments and redundant parentheses are invisible

A tidy tree and its bare tree become the same node, or fail for the same reason. Conversion asks a root
for its label, its parts and its children under field names, and in each of these the bare tree has the
bare trees of what the tree has; so every construct goes on in both with trees of which the same is known.
A chain of operators needs no argument of its own: parentheses end the chain in one tree and not in the
other, but by `convert_binary` a chain is turned as if by going on with its left operand.
-/

namespace ElementLint

namespace Node

variable {s : Source} {t : Tree}

/-- A field name plays no part in what becomes of a tree. -/
theorem convert_withFieldOf (l : Label) (t : Tree) :
    convert (.ofSource s) (t.withFieldOf l) = convert (.ofSource s) t := by
  rw [convert_eq, convert_eq]
  cases t
  rfl

/-! ## What a root is asked for -/

theorem operatorOf_bare (htidy : t.Tidy) (hwrapper : t.isWrapper = false)
    (hform : t.form = .binary ∨ t.form = .unary) : operatorOf t.bare = operatorOf t := by
  rw [operatorOf, operatorOf, Tree.child?_bare htidy hwrapper]
  cases hop : t.child? "operator" with
  | none => rfl
  | some op =>
    have hreserved : t.reserves op = op.inField "operator" := by
      rcases hform with hform | hform <;> rw [Tree.reserves, hform]
    have hop' := htidy.not_isWrapper_of_child? hop hreserved
    simp only [Option.map_some, Tree.type_bare hop']

theorem stringValue_bare (htidy : t.Tidy) (hform : t.form = .string) :
    stringValue (.ofSource s) t.bare = stringValue (.ofSource s) t := by
  have hwrapper : t.isWrapper = false := by rw [Tree.isWrapper, hform]; rfl
  have hkeep : ∀ c ∈ t.children, c.isComment = false ∧ c.bare.label = c.label := by
    intro c hc
    constructor
    · by_contra hcomment
      exact (htidy.comment c hc (by simpa using hcomment)).2 hform
    · exact Tree.label_bare (htidy.not_isWrapper hc (by rw [Tree.reserves, hform]))
  have hchildren : t.bare.children = t.children.map Tree.bare := by
    rw [Tree.children_bare hwrapper, List.filter_eq_self.2]
    intro c hc
    rw [(hkeep c hc).1]
    rfl
  have hnamed : t.bare.namedChildren = t.namedChildren.map Tree.bare := by
    rw [Tree.namedChildren, Tree.namedChildren, hchildren, List.filter_map]
    congr 1
    apply List.filter_congr
    intro c hc
    rw [Function.comp_apply, (hkeep c hc).2]
  rw [stringValue, stringValue, hnamed, List.mapM_map]
  congr 1
  apply sequential_eq.mapM
  intro c hc
  have hlabel := (hkeep c (List.mem_of_mem_filter hc)).2
  rw [Function.comp_apply, stringPiece, stringPiece, Tree.type, hlabel]
  rfl

theorem methodName_bare (htidy : t.TidyThroughout) (hform : t.form = .method) :
    methodName (.ofSource s) t.bare = methodName (.ofSource s) t := by
  have hwrapper : t.isWrapper = false := by rw [Tree.isWrapper, hform]; rfl
  rw [methodName, methodName, Tree.child?_bare htidy.root hwrapper]
  cases hname : t.child? "name" with
  | none => rfl
  | some name =>
    have hname' := htidy.root.not_isWrapper_of_child? hname (by rw [Tree.reserves, hform])
    simp only [Option.map_some, Tree.form_bare hname', Tree.label_bare hname']
    cases hform' : name.form with
    | string => simp only [stringValue_bare (htidy.child? hname).root hform']
    | _ => rfl

/-! ## One root -/

section Root

variable (htidy : t.TidyThroughout) (hwrapper : t.isWrapper = false)
  (ih : ∀ u : Tree, u.size < t.size → u.TidyThroughout →
    convert (.ofSource s) u.bare = convert (.ofSource s) u)
include htidy hwrapper ih

theorem mapM_parts_bare :
    t.bare.parts.mapM (convert (.ofSource s)) = t.parts.mapM (convert (.ofSource s)) := by
  rw [Tree.parts_bare htidy.root hwrapper, List.mapM_map]
  apply sequential_eq.mapM
  intro p hp
  exact ih p (Tree.size_lt_of_mem_parts hp) (htidy.part hp)

theorem ofField_bare (name : String) :
    ofField (convert (.ofSource s)) t.bare name = ofField (convert (.ofSource s)) t name := by
  rw [ofField, ofField, Tree.child?_bare htidy.root hwrapper]
  cases hchild : t.child? name with
  | none => rfl
  | some c =>
    rw [Option.map_some, optional, optional, ih c (Tree.size_lt_of_child? hchild) (htidy.child? hchild)]

theorem alternateOf_bare (hform : t.form = .ifStatement) :
    alternateOf (convert (.ofSource s)) t.bare = alternateOf (convert (.ofSource s)) t := by
  rw [alternateOf, alternateOf, Tree.child?_bare htidy.root hwrapper]
  cases hchild : t.child? "alternative" with
  | none => rfl
  | some clause =>
    have hclause := htidy.root.not_isWrapper_of_child? hchild (by rw [Tree.reserves, hform])
    have htidy' := htidy.child? hchild
    simp only [Option.map_some]
    rw [Tree.parts_bare htidy'.root hclause, List.head?_map]
    cases hparts : clause.parts.head? with
    | none => rfl
    | some p =>
      have hp := List.mem_of_head? hparts
      have hlt := Nat.lt_trans (Tree.size_lt_of_mem_parts hp) (Tree.size_lt_of_child? hchild)
      rw [Option.map_some, optional, optional, ih p hlt (htidy'.part hp)]

theorem convert_bare_call (hform : t.form = .call) :
    ofTreeWith (.ofSource s) (convert (.ofSource s)) t.bare =
      ofTreeWith (.ofSource s) (convert (.ofSource s)) t := by
  have hform' : t.bare.form = .call := (Tree.form_bare hwrapper).trans hform
  unfold ofTreeWith
  rw [hform, hform']
  dsimp only
  rw [ofField_bare htidy hwrapper ih, Tree.label_bare hwrapper, Tree.child?_bare htidy.root hwrapper,
    Tree.hasOptionalMark_bare htidy hwrapper]
  cases hchild : t.child? "arguments" with
  | none => rfl
  | some arguments =>
    have hlist := htidy.root.not_isWrapper_of_child? hchild (by rw [Tree.reserves, hform])
    have hlt := Tree.size_lt_of_child? hchild
    have htidy' := htidy.child? hchild
    have hparts := mapM_parts_bare htidy' hlist fun u hu => ih u (Nat.lt_trans hu hlt)
    simp only [Option.map_some, Tree.type_bare hlist, hparts, ih arguments hlt htidy']

theorem convert_bare_binary (hform : t.form = .binary) :
    convert (.ofSource s) t.bare = convert (.ofSource s) t := by
  have hform' : t.bare.form = .binary := (Tree.form_bare hwrapper).trans hform
  rw [convert_binary _ hform, convert_binary _ hform', ofField_bare htidy hwrapper ih]
  congr 1
  funext left
  rw [extendChain, extendChain, operatorOf_bare htidy.root hwrapper (.inl hform),
    ofField_bare htidy hwrapper ih, Tree.label_bare hwrapper]

/-- A root that is no redundant pair of parentheses becomes the same in the bare tree. -/
theorem convert_bare_of_not_isWrapper : convert (.ofSource s) t.bare = convert (.ofSource s) t := by
  by_cases hbinary : t.form = .binary
  · exact convert_bare_binary htidy hwrapper ih hbinary
  rw [convert_eq, convert_eq]
  by_cases hcall : t.form = .call
  · exact convert_bare_call htidy hwrapper ih hcall
  have htype := Tree.type_bare hwrapper
  have hlabel := Tree.label_bare hwrapper
  have hparts := mapM_parts_bare htidy hwrapper ih
  have hfield := ofField_bare htidy hwrapper ih
  unfold ofTreeWith
  rw [Tree.form_bare hwrapper]
  cases hform : t.form with
  | binary => exact absurd hform hbinary
  | call => exact absurd hform hcall
  | program | block | other => simp only [hlabel, htype, hparts]
  | expressionStatement =>
    simp only [hlabel, Tree.parts_bare htidy.root hwrapper]
    cases hp : t.parts with
    | nil => rfl
    | cons p rest =>
      have hmem : p ∈ t.parts := by rw [hp]; exact List.mem_cons_self
      simp only [List.map_cons, ih p (Tree.size_lt_of_mem_parts hmem) (htidy.part hmem)]
  | parenthesized =>
    rw [Tree.parts_bare htidy.root hwrapper] at hparts ⊢
    rw [Tree.isWrapper, hform] at hwrapper
    cases hp : t.parts with
    | nil => simp only [List.map_nil, hlabel, htype]
    | cons p rest =>
      cases rest with
      | nil =>
        rw [hp] at hwrapper
        cases hwrapper
      | cons q rest =>
        rw [hp] at hparts
        simp only [List.map_cons] at hparts ⊢
        simp only [hlabel, htype, hparts]
  | ifStatement => simp only [hlabel, hfield, alternateOf_bare htidy hwrapper ih hform]
  | member | subscript => simp only [hlabel, hfield, Tree.hasOptionalMark_bare htidy hwrapper]
  | super | null | identifier => simp only [hlabel]
  | bool b => cases b <;> simp only [hlabel]
  | string => simp only [hlabel, stringValue_bare htidy.root hform]
  | number => simp only [hlabel]
  | unary => simp only [hlabel, hfield, operatorOf_bare htidy.root hwrapper (.inr hform)]
  | method => simp only [hlabel, hfield, methodName_bare htidy hform]

end Root

/-! ## The whole tree -/

/-- A tree that is tidy throughout becomes the same node as its bare tree, or fails for the same reason. -/
theorem convert_bare (h : t.TidyThroughout) : convert (.ofSource s) t.bare = convert (.ofSource s) t := by
  induction t using Tree.inductionOn with
  | step t ih =>
    cases hwrapper : t.isWrapper with
    | true =>
      obtain ⟨p, hp⟩ := Tree.exists_part_of_isWrapper hwrapper
      have hmem : p ∈ t.parts := by rw [hp]; exact List.mem_cons_self
      rw [Tree.bare_of_isWrapper hwrapper hp, convert_withFieldOf, convert_of_isWrapper _ hwrapper hp]
      exact ih p (Tree.size_lt_of_mem_parts hmem) (h.part hmem)
    | false => exact convert_bare_of_not_isWrapper h hwrapper ih

/-- Comments and redundant parentheses are invisible: without them a tree becomes the same node, with the
same lines and columns, or fails for the same reason. This holds whenever the limit is not reached, and from
some limit on it is reached in neither tree. -/
theorem comments_and_parentheses_invisible (s : Source) (t : Tree) (h : t.TidyThroughout) :
    (∃ depth, ∀ limit, depth ≤ limit →
      ofTree (.ofSource s) limit t ≠ .error .tooDeep ∧
        ofTree (.ofSource s) limit t.bare = ofTree (.ofSource s) limit t) ∧
    ∀ limit limit',
      ofTree (.ofSource s) limit t = .error .tooDeep ∨
        ofTree (.ofSource s) limit' t.bare = .error .tooDeep ∨
        ofTree (.ofSource s) limit' t.bare = ofTree (.ofSource s) limit t := by
  have hsame : convert (.ofSource s) t.bare = convert (.ofSource s) t := convert_bare h
  constructor
  · refine ⟨max t.size t.bare.size, fun limit hlimit => ?_⟩
    rw [ofTree_eq_convert_of_le _ (Nat.le_trans (Nat.le_max_left _ _) hlimit),
      ofTree_eq_convert_of_le _ (Nat.le_trans (Nat.le_max_right _ _) hlimit)]
    exact ⟨convert_ne_tooDeep _ t, hsame⟩
  · intro limit limit'
    rcases ofTree_eq_convert (.ofSource s) limit t with hdeep | ht
    · exact .inl hdeep
    · rcases ofTree_eq_convert (.ofSource s) limit' t.bare with hdeep | hbare
      · exact .inr (.inl hdeep)
      · exact .inr (.inr (by rw [ht, hbare, hsame]))

/-- The tree of `((a && b)) && /**/ f(('c'));`. -/
def wrappedTree : Tree :=
  .namedNode "program" 0 28 none [
    .namedNode "expression_statement" 0 28 none [
      .namedNode "binary_expression" 0 27 none [
        .namedNode "parenthesized_expression" 0 10 (some "left") [
          .token "(" 0 1,
          .namedNode "parenthesized_expression" 1 9 none [
            .token "(" 1 2,
            .namedNode "binary_expression" 2 8 none [
              .namedNode "identifier" 2 3 (some "left") [],
              (Tree.token "&&" 4 6).withField "operator",
              .namedNode "identifier" 7 8 (some "right") []],
            .token ")" 8 9],
          .token ")" 9 10],
        (Tree.token "&&" 11 13).withField "operator",
        .namedNode "comment" 14 18 none [],
        .namedNode "call_expression" 19 27 (some "right") [
          .namedNode "identifier" 19 20 (some "function") [],
          .namedNode "arguments" 20 27 (some "arguments") [
            .token "(" 20 21,
            .namedNode "parenthesized_expression" 21 26 none [
              .token "(" 21 22,
              .namedNode "string" 22 25 none [
                .token "'" 22 23, .namedNode "string_fragment" 23 24 none [], .token "'" 24 25],
              .token ")" 25 26],
            .token ")" 26 27]]],
      .token ";" 27 28]]

/-- The same tree without the comment and the parentheses. The chain of operators now nests to the left. -/
def unwrappedTree : Tree :=
  .namedNode "program" 0 28 none [
    .namedNode "expression_statement" 0 28 none [
      .namedNode "binary_expression" 0 27 none [
        .namedNode "binary_expression" 2 8 (some "left") [
          .namedNode "identifier" 2 3 (some "left") [],
          (Tree.token "&&" 4 6).withField "operator",
          .namedNode "identifier" 7 8 (some "right") []],
        (Tree.token "&&" 11 13).withField "operator",
        .namedNode "call_expression" 19 27 (some "right") [
          .namedNode "identifier" 19 20 (some "function") [],
          .namedNode "arguments" 20 27 (some "arguments") [
            .token "(" 20 21,
            .namedNode "string" 22 25 none [
              .token "'" 22 23, .namedNode "string_fragment" 23 24 none [], .token "'" 24 25],
            .token ")" 26 27]]],
      .token ";" 27 28]]

/-- A chain that the parentheses end becomes what the chain without them becomes. -/
theorem comments_and_parentheses_invisible_chain :
    wrappedTree.TidyThroughout ∧ wrappedTree.bare = unwrappedTree ∧
      ∃ n, ofTree (.ofSource (.ofBytes (Utf8.encode "((a && b)) && /**/ f(('c'));"))) maxDepth
          wrappedTree = .ok n ∧
        ofTree (.ofSource (.ofBytes (Utf8.encode "((a && b)) && /**/ f(('c'));"))) maxDepth
          unwrappedTree = .ok n := by
  have hall : ∀ s ∈ wrappedTree.subtrees, s.Tidy := by decide
  have htidy : wrappedTree.TidyThroughout := fun a s hs => hall s (Tree.mem_subtrees_of_at? hs)
  obtain ⟨-, hsame⟩ := comments_and_parentheses_invisible
    (.ofBytes (Utf8.encode "((a && b)) && /**/ f(('c'));")) wrappedTree htidy
  refine ⟨htidy, rfl, _, rfl, ?_⟩
  exact ((hsame maxDepth maxDepth).resolve_left nofun).resolve_left nofun

end Node

end ElementLint
