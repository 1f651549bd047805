import Mathlib.Data.List.Infix
import ElementLint.Proofs.Engine.Options
import ElementLint.Proofs.Engine.Run
import ElementLint.Proofs.Node.Address
import ElementLint.Proofs.Order.StableSort
import ElementLint.Proofs.Report.ItemOrder

/-!
# Which element names are reported

`Defines c name literal` says by its form which node `c` registers an element: a call of the method
`define` of the registry, whose first argument is the literal with the name. `FoundName.Bad` says which
of these calls in a program the rule is about: those whose name is no element name and, unless the
options set `loose`, those whose name is discouraged.

The rule finds exactly these names, each once and at its literal, however deep its call stands. Since the
calls that are looked at do not depend on the options, the loose rule reports a part of what the strict
one reports, in the same order.
-/

namespace ElementLint

/-- A text contains another one if this stands somewhere inside it. -/
theorem Text.contains_iff {t part : Text} : t.contains part = true ↔ part <:+: t := by
  induction t with
  | nil => simp [contains, contains.tails]
  | cons c t ih =>
    rw [List.infix_cons_iff, ← ih, ← List.isPrefixOf_iff_prefix]
    simp [contains, contains.tails]

namespace ElementName

/-- A name that clashes with the names of frameworks or is easily mistyped. -/
def Discouraged (name : Text) : Prop :=
  Text.ofString "xml" <+: name ∨ Text.ofString "polymer-" <+: name ∨ Text.ofString "ng-" <+: name ∨
    Text.ofString "x-" <+: name ∨ Text.ofString "-" <:+ name ∨ Text.ofString "--" <:+: name ∨
    Text.ofString "." <:+: name

theorem isBestPractice_eq_false_iff {name : Text} :
    isBestPractice name = false ↔ Discouraged name := by
  have hlast : name.getLast? = some hyphen ↔ Text.ofString "-" <:+ name := by
    rw [List.getLast?_eq_some_iff]
    exact exists_congr fun _ => eq_comm
  have hdot : name.elem 0x2E = true ↔ Text.ofString "." <:+: name := by
    rw [List.elem_iff]
    exact (List.singleton_infix_iff _ _).symm
  rw [Discouraged, ← hlast, ← hdot, ← Text.contains_iff, isBestPractice]
  simp only [discouragedStarts, List.any_cons, List.any_nil, Bool.or_false, Bool.and_eq_false_iff,
    Bool.not_eq_false', Bool.or_eq_true, List.isPrefixOf_iff_prefix, bne_eq_false_iff_eq,
    or_assoc]

end ElementName

namespace InvalidElementName

/-- `customElements`, by itself or as a property of `window`. -/
inductive IsRegistry : Node → Prop
  | global {pos : Position} : IsRegistry (.identifier pos "customElements")
  | ofWindow {pos windowPos namePos : Position} {optional : Bool} :
      IsRegistry (.member pos (some (.identifier windowPos "window"))
        (some (.identifier namePos "customElements")) false optional)

/-- The node calls the method `define` of the registry, and its first argument is a literal that holds a
name as a string. -/
def Defines (c : Node) (name : Text) (literal : Node) : Prop :=
  ∃ pos memberPos registry definePos literalPos raw rest optionalMember optionalCall,
    IsRegistry registry ∧ literal = .literal literalPos (.text name) raw ∧
      c = .call pos
        (some (.member memberPos (some registry) (some (.identifier definePos "define")) false
          optionalMember))
        (literal :: rest) optionalCall

/-- A name in a call that registers an element: the address of the call, the name, and the literal that
holds it. -/
structure FoundName where
  call : Address
  name : Text
  literal : Node

/-- The options ask for valid names only. -/
def SetsLoose (options : List Json) : Prop :=
  ∃ fields, options = [.object fields] ∧ Fields.get? fields "loose" = some (.bool true)

/-- The found name is registered in a program and is a bad one. -/
def FoundName.Bad (root : Node) (options : List Json) (f : FoundName) : Prop :=
  (∃ c, root.at? f.call = some c ∧ Defines c f.name f.literal) ∧
    (ElementName.isValid f.name = false ∨ (¬SetsLoose options ∧ ElementName.Discouraged f.name))

def FoundName.diagnostic (severity : Severity) (f : FoundName) : Diagnostic where
  rule := .text "no-invalid-element-name"
  messageId := "invalidElementName"
  message := .text (
    "Element name is invalid and should follow the HTML standard's recommendations" ++
    "(https://html.spec.whatwg.org/multipage/custom-elements.html#prod-potentialcustomelementname).")
  severity := severity
  position := f.literal.pos

/-! ## Calls by their form -/

theorem isIdentifier_iff {name : Text} {n : Option Node} :
    isIdentifier name n = true ↔ ∃ pos, n = some (.identifier pos name) := by
  unfold isIdentifier
  split
  · rename_i pos other
    simp
  · rename_i hn
    constructor
    · intro h
      cases h
    · rintro ⟨pos, rfl⟩
      exact absurd rfl (hn pos name)

theorem isRegistry_iff {n : Option Node} :
    isRegistry n = true ↔ ∃ registry, n = some registry ∧ IsRegistry registry := by
  constructor
  · intro h
    unfold isRegistry at h
    split at h
    · cases beq_iff_eq.1 h
      exact ⟨_, rfl, .global⟩
    · simp only [Bool.and_eq_true, Bool.not_eq_true', isIdentifier_iff] at h
      obtain ⟨⟨rfl, _, rfl⟩, _, rfl⟩ := h
      exact ⟨_, rfl, .ofWindow⟩
    · cases h
  · rintro ⟨_, rfl, h⟩
    cases h with
    | global => exact beq_self_eq_true _
    | ofWindow => simp [isRegistry, isIdentifier]

theorem isDefine_iff {n : Option Node} :
    isDefine n = true ↔ ∃ pos registry definePos optional, IsRegistry registry ∧
      n = some (.member pos (some registry) (some (.identifier definePos "define")) false optional) := by
  constructor
  · intro h
    unfold isDefine at h
    split at h
    · simp only [Bool.and_eq_true, Bool.not_eq_true', isIdentifier_iff, isRegistry_iff] at h
      obtain ⟨⟨rfl, _, rfl, hregistry⟩, _, rfl⟩ := h
      exact ⟨_, _, _, _, hregistry, rfl⟩
    · cases h
  · rintro ⟨_, registry, _, _, hregistry, rfl⟩
    have hobject : isRegistry (some registry) = true := isRegistry_iff.2 ⟨registry, rfl, hregistry⟩
    simp [isDefine, isIdentifier, hobject]

/-- The name that a node registers and the literal that holds it, if the node is a call that registers
one. -/
def definedLiteral? : Node → Option (Text × Node)
  | .call _ callee (.literal pos (.text name) raw :: _) _ =>
    if isDefine callee then some (name, .literal pos (.text name) raw) else none
  | _ => none

theorem definedLiteral?_eq_some_iff {n literal : Node} {name : Text} :
    definedLiteral? n = some (name, literal) ↔ Defines n name literal := by
  unfold definedLiteral?
  split
  · rename_i pos callee literalPos name' raw rest optional
    rw [Option.ite_none_right_eq_some, isDefine_iff]
    constructor
    · rintro ⟨⟨_, _, _, _, hregistry, rfl⟩, heq⟩
      cases heq
      exact ⟨_, _, _, _, _, _, _, _, _, hregistry, rfl, rfl⟩
    · rintro ⟨_, _, _, _, _, _, _, _, _, hregistry, rfl, heq⟩
      cases heq
      exact ⟨⟨_, _, _, _, hregistry, rfl⟩, rfl⟩
  · rename_i hn
    refine iff_of_false nofun ?_
    rintro ⟨_, _, _, _, _, _, _, _, _, -, rfl, rfl⟩
    exact hn _ _ _ _ _ _ _ rfl

theorem definedName?_eq (n : Node) :
    definedName? n = (definedLiteral? n).map fun d => (d.1, d.2.pos) := by
  unfold definedName?
  split
  · rename_i callee _ _ _ _ _
    rw [definedLiteral?]
    cases isDefine callee <;> rfl
  · rename_i hn
    have hnone : definedLiteral? n = none := by
      unfold definedLiteral?
      split
      · exact absurd rfl (hn _ _ _ _ _ _ _)
      · rfl
    rw [hnone]
    rfl

/-! ## The rule reports what is found -/

/-- The names that a program registers, call by call. -/
def definedIn (root : Node) : List FoundName :=
  root.occurrences.flatMap fun o => (definedLiteral? o.2).toList.map fun d => ⟨o.1, d.1, d.2⟩

theorem mem_definedIn {root : Node} {f : FoundName} :
    f ∈ definedIn root ↔ ∃ c, root.at? f.call = some c ∧ Defines c f.name f.literal := by
  simp only [definedIn, List.mem_flatMap, List.mem_map, Option.mem_toList]
  constructor
  · rintro ⟨⟨a, c⟩, hc, ⟨name, literal⟩, hd, rfl⟩
    exact ⟨c, Node.mem_occurrences.1 hc, definedLiteral?_eq_some_iff.1 hd⟩
  · rintro ⟨c, hc, hd⟩
    exact ⟨(f.call, c), Node.mem_occurrences.2 hc, (f.name, f.literal),
      definedLiteral?_eq_some_iff.2 hd, rfl⟩

theorem pairwise_definedIn (root : Node) :
    (definedIn root).Pairwise fun f g => f.call < g.call := by
  rw [definedIn, List.pairwise_flatMap]
  constructor
  · intro o _
    cases definedLiteral? o.2 with
    | none => exact List.Pairwise.nil
    | some d => exact List.pairwise_singleton _ _
  · apply (Node.pairwise_occurrences root).imp
    intro o o' h f hf g hg
    obtain ⟨d, -, rfl⟩ := List.mem_map.1 hf
    obtain ⟨d', -, rfl⟩ := List.mem_map.1 hg
    exact h

/-- The first argument of a call stands in its second slot, after the callee. -/
theorem at?_of_defines {root c literal : Node} {name : Text} {a : Address} (hc : root.at? a = some c)
    (h : Defines c name literal) : root.at? (a ++ [1]) = some literal := by
  rw [Node.at?_append, hc, Option.bind_some]
  obtain ⟨_, _, _, _, _, _, _, _, _, -, -, rfl⟩ := h
  rfl

def isBad (loose : Bool) (f : FoundName) : Bool :=
  !ElementName.isValid f.name || (!loose && !ElementName.isBestPractice f.name)

theorem isBad_of_loose {f : FoundName} (h : isBad true f = true) : isBad false f = true := by
  simp_all [isBad]

def badIn (loose : Bool) (root : Node) : List FoundName := (definedIn root).filter (isBad loose)

theorem found_eq (options : List Json) (severity : Severity) (o : Address × Node) :
    Entry.found ⟨rule, options, severity⟩ o.2 =
      (((definedLiteral? o.2).toList.map fun d => FoundName.mk o.1 d.1 d.2).filter
        (isBad (isLoose options))).map (FoundName.diagnostic severity) := by
  have hreports : Entry.reports ⟨rule, options, severity⟩ o.2 =
      ((check validName options o.2).toOption).getD [] := rfl
  rw [Entry.found, hreports, check, definedName?_eq]
  cases definedLiteral? o.2 with
  | none => rfl
  | some d =>
    change List.map (Entry.diagnostic ⟨rule, options, severity⟩)
        (if isBad (isLoose options) ⟨o.1, d.1, d.2⟩ = true then [⟨messageId, d.2.pos⟩] else []) =
      (List.filter (isBad (isLoose options)) [⟨o.1, d.1, d.2⟩]).map (FoundName.diagnostic severity)
    by_cases h : isBad (isLoose options) ⟨o.1, d.1, d.2⟩ = true
    · rw [List.filter_cons_of_pos h, if_pos h]
      rfl
    · rw [List.filter_cons_of_neg h, if_neg h]
      rfl

theorem run_eq_badIn (root : Node) (options : List Json) {severity : Severity}
    (hseverity : severity ≠ .off) :
    Engine.run ⟨[⟨rule, options, severity⟩]⟩ ((root.walk 0).map Visit.node) =
      .ok (((badIn (isLoose options) root).map (FoundName.diagnostic severity)).mergeSort
        Diagnostic.le) := by
  rw [Engine.run_singleton (steady rfl) hseverity, Node.map_node_walk, Node.preorder, badIn, definedIn,
    List.filter_flatMap, List.map_flatMap, List.flatMap_map]
  simp only [found_eq]

/-- What the rule reports stands in the order of the names' positions. -/
theorem mergeSort_diagnostic (severity : Severity) (names : List FoundName) :
    (names.map (FoundName.diagnostic severity)).mergeSort Diagnostic.le =
      (names.mergeSort fun f g => f.literal.pos.le g.literal.pos).map
        (FoundName.diagnostic severity) := by
  symm
  apply List.map_mergeSort
  exact fun _ _ _ _ => rfl

/-- The loose rule reports a part of what the strict one reports. -/
theorem sublist_badIn (severity : Severity) (root : Node) :
    (((badIn true root).map (FoundName.diagnostic severity)).mergeSort Diagnostic.le).Sublist
      (((badIn false root).map (FoundName.diagnostic severity)).mergeSort Diagnostic.le) := by
  have hfilter : badIn true root = (badIn false root).filter (isBad true) := by
    rw [badIn, badIn, List.filter_filter]
    apply List.filter_congr
    intro f _
    rw [Bool.eq_iff_iff, Bool.and_eq_true]
    exact ⟨fun h => ⟨h, isBad_of_loose h⟩, fun h => h.1⟩
  rw [mergeSort_diagnostic, mergeSort_diagnostic, hfilter, ← filter_mergeSort]
  · exact List.filter_sublist.map _
  · exact fun _ _ _ => Position.le_trans
  · exact fun _ _ => Position.le_total _ _

/-- Options that the rule takes set `loose` as the rule reads them. -/
theorem isLoose_iff {options : List Json} (h : Takes options) :
    isLoose options = true ↔ SetsLoose options := by
  rcases h with rfl | ⟨fields, rfl, hfields⟩
  · exact iff_of_false nofun nofun
  · have hset : SetsLoose [.object fields] ↔ Fields.get? fields "loose" = some (.bool true) := by
      constructor
      · rintro ⟨_, h, hget⟩
        cases h
        exact hget
      · exact fun h => ⟨fields, rfl, h⟩
    rw [hset, isLoose, List.head?_cons]
    change ((Fields.get? fields "loose").getD (.bool false)).truthy = true ↔ _
    cases hget : Fields.get? fields "loose" with
    | none => simp [Json.truthy]
    | some value =>
      obtain ⟨b, rfl⟩ := exists_bool_of_get? hfields hget
      rw [Option.getD_some, Option.some.injEq, Json.bool.injEq]
      rfl

theorem isBad_iff {options : List Json} (h : Takes options) {f : FoundName} :
    isBad (isLoose options) f = true ↔
      ElementName.isValid f.name = false ∨ (¬SetsLoose options ∧ ElementName.Discouraged f.name) := by
  rw [← isLoose_iff h, ← ElementName.isBestPractice_eq_false_iff, isBad]
  simp

/-- Run over a program, the rule reports the bad names that are registered in it, each of them once and at
its own literal, and nothing else. What the loose rule reports is part of what the strict one reports. -/
theorem run_eq_bad_names (root : Node) (severity : Severity) (hseverity : severity ≠ .off) :
    (∀ options, Options.check rule (.list options) = .ok () →
      ∃ names : List FoundName,
        (∀ f, f ∈ names ↔ f.Bad root options) ∧
        (∀ f ∈ names, root.at? (f.call ++ [1]) = some f.literal) ∧
        (names.Pairwise fun f g => f.call < g.call) ∧
        Engine.run ⟨[⟨rule, options, severity⟩]⟩ ((root.walk 0).map Visit.node) =
          .ok ((names.map (FoundName.diagnostic severity)).mergeSort Diagnostic.le)) ∧
    ∀ loose strict, Options.check rule (.list loose) = .ok () →
      Options.check rule (.list strict) = .ok () → SetsLoose loose → ¬SetsLoose strict →
      ∃ few many,
        Engine.run ⟨[⟨rule, loose, severity⟩]⟩ ((root.walk 0).map Visit.node) = .ok few ∧
        Engine.run ⟨[⟨rule, strict, severity⟩]⟩ ((root.walk 0).map Visit.node) = .ok many ∧
        few.Sublist many := by
  constructor
  · intro options hoptions
    have htakes := check_options_eq_ok_iff.1 hoptions
    refine ⟨badIn (isLoose options) root, ?_, ?_, ?_, run_eq_badIn root options hseverity⟩
    · intro f
      rw [badIn, List.mem_filter, mem_definedIn, isBad_iff htakes, FoundName.Bad]
    · intro f hf
      obtain ⟨c, hc, hdefines⟩ := mem_definedIn.1 (List.mem_of_mem_filter hf)
      exact at?_of_defines hc hdefines
    · exact (pairwise_definedIn root).filter _
  · intro loose strict hloose hstrict hset hunset
    have htrue := (isLoose_iff (check_options_eq_ok_iff.1 hloose)).2 hset
    have hfalse := mt (isLoose_iff (check_options_eq_ok_iff.1 hstrict)).1 hunset
    refine ⟨_, _, run_eq_badIn root loose hseverity, run_eq_badIn root strict hseverity, ?_⟩
    rw [htrue, Bool.eq_false_of_not_eq_true hfalse]
    exact sublist_badIn severity root

/-- A call that registers a name, with the literal at a column of the first line. -/
def defineCall (registry : Node) (column : Nat) (name : Text) (rest : List Node) : Node :=
  .call ⟨1, 1⟩
    (some (.member ⟨1, 1⟩ (some registry) (some (.identifier ⟨1, 1⟩ "define")) false false))
    (.literal ⟨1, column⟩ (.text name) [] :: rest) false

/-- The registry as a property of `window`. -/
def windowRegistry : Node :=
  .member ⟨1, 1⟩ (some (.identifier ⟨1, 1⟩ "window")) (some (.identifier ⟨1, 1⟩ "customElements")) false
    false

/-- A program that registers `a` and, in the arguments of this call, `x-b`. -/
def nestedDefines : Node :=
  .program ⟨1, 1⟩ [.exprStmt ⟨1, 1⟩ (defineCall (.identifier ⟨1, 1⟩ "customElements") 2 "a"
    [defineCall windowRegistry 3 "x-b" []])]

/-- An invalid name in an outer call and a discouraged one in an inner call. -/
theorem run_eq_bad_names_nested :
    Severity.warn ≠ .off ∧ Options.check rule (.list []) = .ok () ∧
      Options.check rule (.list [.object [("loose", .bool true)]]) = .ok () ∧
      SetsLoose [.object [("loose", .bool true)]] ∧ ¬SetsLoose [] ∧
      (∃ names : List FoundName,
        (∀ f, f ∈ names ↔ f.Bad nestedDefines []) ∧
        Engine.run ⟨[⟨rule, [], .warn⟩]⟩ ((nestedDefines.walk 0).map Visit.node) =
          .ok ((names.map (FoundName.diagnostic .warn)).mergeSort Diagnostic.le) ∧
        ⟨[0, 0], "a", .literal ⟨1, 2⟩ (.text "a") []⟩ ∈ names ∧
        ⟨[0, 0, 2], "x-b", .literal ⟨1, 3⟩ (.text "x-b") []⟩ ∈ names) ∧
      ∃ few many,
        Engine.run ⟨[⟨rule, [.object [("loose", .bool true)]], .warn⟩]⟩
          ((nestedDefines.walk 0).map Visit.node) = .ok few ∧
        Engine.run ⟨[⟨rule, [], .warn⟩]⟩ ((nestedDefines.walk 0).map Visit.node) = .ok many ∧
        few.Sublist many := by
  have hloose : Options.check rule (.list [.object [("loose", .bool true)]]) = .ok () := rfl
  have hset : SetsLoose [.object [("loose", .bool true)]] := ⟨_, rfl, rfl⟩
  obtain ⟨hbad, hpart⟩ := run_eq_bad_names nestedDefines .warn (by decide)
  obtain ⟨names, hmem, -, -, hrun⟩ := hbad [] rfl
  refine ⟨by decide, rfl, hloose, hset, nofun, ⟨names, hmem, hrun, ?_, ?_⟩, hpart _ [] hloose rfl hset nofun⟩
  · exact (hmem _).2 ⟨⟨_, rfl, _, _, _, _, _, _, _, _, _, .global, rfl, rfl⟩, .inl (by decide)⟩
  · exact (hmem _).2 ⟨⟨_, rfl, _, _, _, _, _, _, _, _, _, .ofWindow, rfl, rfl⟩,
      .inr ⟨nofun, .inr (.inr (.inr (.inl ⟨_, rfl⟩)))⟩⟩

end InvalidElementName

end ElementLint
