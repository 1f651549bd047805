import ElementLint.Proofs.Literal.StringSpelling
import ElementLint.Proofs.Rule.BadElementName
import ElementLint.Proofs.Text.Utf16

/-!
# Names by their spelling

`StringPiece.valueOf` is the text that a string literal denotes: its pieces denote UTF-16 code units, which
are put together to code points. `DefineCall` is a call that registers an element under a name written as such
a literal, and `DefineCall.Reported` says that the rule reports it.

The rule judges the text that the program reads, and this is not always the one that the literal denotes: a
pair of surrogates written as two escapes is not put together, and an octal escape of one digit is read as
the digit. `Misjudged` says when that matters. The main statement says that the verdict is the one on the
value of the literal unless it is misjudged, so two spellings of one name get the same verdict unless one of
them is misjudged and the other is not; and only literals with such a pair or such an escape are misjudged.
-/

namespace ElementLint

open Attempt

namespace StringPiece

/-- The UTF-16 code units that the pieces of a literal denote. -/
def unitsOf (pieces : List StringPiece) : List Nat := Utf16.encode (pieces.flatMap points)

/-- The text that the pieces of a literal denote. -/
def valueOf (pieces : List StringPiece) : Text := Utf16.decode (unitsOf pieces)

/-- Without surrogate pairs written apart, a literal has the value that its pieces have one by one. -/
theorem valueOf_eq {pieces : List StringPiece} (h : ¬Utf16.HasPair (pieces.flatMap points)) :
    valueOf pieces = pieces.flatMap points := by
  refine Utf16.decode_encode (fun c hc => ?_) h
  obtain ⟨p, -, hc⟩ := List.mem_flatMap.1 hc
  exact lt_of_mem_points hc

theorem flatMap_read_eq {pieces : List StringPiece} (h : ∀ p ∈ pieces, ¬p.IsOctalDigit) :
    pieces.flatMap read = pieces.flatMap points :=
  List.flatMap_congr fun p hp => read_eq_points (h p hp)

/-- An octal escape of one digit denotes a control character. -/
theorem exists_mem_points {p : StringPiece} (h : p.IsOctalDigit) : ∃ c < 8, p.points = [c] := by
  unfold IsOctalDigit at h
  split at h
  · rename_i d _ _ _
    exact ⟨_, d.value.isLt, congrArg (· :: []) (Numeral.Digit.number_singleton d)⟩
  · cases h

/-- What a piece denotes is read, apart from a few control characters. -/
theorem mem_read_of_mem_points {p : StringPiece} {c : Nat} (hc : c ∈ p.points) (hlarge : 8 ≤ c) :
    c ∈ p.read := by
  by_cases h : p.IsOctalDigit
  · obtain ⟨d, hd, hpoints⟩ := exists_mem_points h
    rw [hpoints, List.mem_singleton] at hc
    omega
  · rwa [read_eq_points h]

end StringPiece

namespace ElementName

theorem isNameChar_eq_false {c : Nat} (h : c < 0x2D ∨ 0xD800 ≤ c ∧ c < 0xE000) :
    isNameChar c = false := by
  simp only [isNameChar, nameRanges, List.any_cons, List.any_nil, Bool.or_false,
    Bool.or_eq_false_iff, Bool.and_eq_false_iff, decide_eq_false_iff_not]
  omega

theorem isNameChar_of_isFirstChar {c : Nat} (h : isFirstChar c = true) : isNameChar c = true := by
  simp only [isFirstChar, Bool.and_eq_true, decide_eq_true_eq] at h
  simp [isNameChar, nameRanges, h]

/-- A text with a character that no name has is no name. -/
theorem isValid_eq_false_of_mem {name : Text} {c : Nat} (hc : c ∈ name)
    (h : isNameChar c = false) : isValid name = false := by
  cases name with
  | nil => cases hc
  | cons first rest =>
    have hpotential : isPotential (first :: rest) = false := by
      rw [isPotential, Bool.and_eq_false_iff, Bool.and_eq_false_iff]
      refine .inl ?_
      rcases List.mem_cons.1 hc with rfl | hc
      · exact .inl (Bool.eq_false_iff.2 fun hfirst => by
          rw [isNameChar_of_isFirstChar hfirst] at h
          cases h)
      · refine .inr (List.all_eq_false.2 ⟨c, hc, ?_⟩)
        rw [h]
        decide
    rw [isValid, hpotential, Bool.false_and]

end ElementName

namespace InvalidElementName

/-- A name that is reported under some options. -/
def BadName (options : List Json) (name : Text) : Prop :=
  ElementName.isValid name = false ∨ (¬SetsLoose options ∧ ElementName.Discouraged name)

/-- The verdict on a literal is not the one on its value: either it holds a pair of surrogates written apart,
which makes up a character that the name may have; or it holds an octal escape of one digit, and the digit in
its place goes with the name. -/
def Misjudged (options : List Json) (pieces : List StringPiece) : Prop :=
  (Utf16.HasPair (pieces.flatMap StringPiece.points) ∧
      ¬BadName options (StringPiece.valueOf pieces)) ∨
    ((∃ p ∈ pieces, p.IsOctalDigit) ∧ ¬BadName options (pieces.flatMap StringPiece.read))

theorem badName_read_of_hasPair {pieces : List StringPiece}
    (h : Utf16.HasPair (pieces.flatMap StringPiece.points)) (options : List Json) :
    BadName options (pieces.flatMap StringPiece.read) := by
  obtain ⟨high, low, hhigh, -, hpart⟩ := h
  obtain ⟨p, hp, hmem⟩ := List.mem_flatMap.1 (hpart.subset List.mem_cons_self)
  have hlarge : 0xD800 ≤ high ∧ high < 0xE000 := ⟨hhigh.1, by have := hhigh.2; omega⟩
  have hread : high ∈ pieces.flatMap StringPiece.read :=
    List.mem_flatMap.2 ⟨p, hp, StringPiece.mem_read_of_mem_points hmem (by omega)⟩
  exact .inl (ElementName.isValid_eq_false_of_mem hread
    (ElementName.isNameChar_eq_false (.inr hlarge)))

theorem badName_points_of_octalDigit {pieces : List StringPiece}
    (h : ∃ p ∈ pieces, p.IsOctalDigit) (options : List Json) :
    BadName options (pieces.flatMap StringPiece.points) := by
  obtain ⟨p, hp, hdigit⟩ := h
  obtain ⟨c, hc, hpoints⟩ := StringPiece.exists_mem_points hdigit
  have hmem : c ∈ pieces.flatMap StringPiece.points :=
    List.mem_flatMap.2 ⟨p, hp, hpoints ▸ List.mem_singleton_self c⟩
  exact .inl (ElementName.isValid_eq_false_of_mem hmem
    (ElementName.isNameChar_eq_false (.inl (by omega))))

/-- A literal is judged by its value unless it is misjudged. -/
theorem badName_read_iff (options : List Json) (pieces : List StringPiece) :
    (BadName options (pieces.flatMap StringPiece.read) ↔
      BadName options (StringPiece.valueOf pieces)) ↔ ¬Misjudged options pieces := by
  by_cases hpair : Utf16.HasPair (pieces.flatMap StringPiece.points)
  · have hread := badName_read_of_hasPair hpair options
    simp [Misjudged, hpair, hread]
  · rw [StringPiece.valueOf_eq hpair]
    by_cases hdigit : ∃ p ∈ pieces, p.IsOctalDigit
    · have hpoints := badName_points_of_octalDigit hdigit options
      simp [Misjudged, hpair, hdigit, hpoints]
    · have hnone : ∀ p ∈ pieces, ¬p.IsOctalDigit := fun p hp h => hdigit ⟨p, hp, h⟩
      rw [StringPiece.flatMap_read_eq hnone]
      simp [Misjudged, hpair, hdigit]

/-! ## Calls -/

/-- A call that registers an element, with its first argument a string literal in certain pieces. -/
structure DefineCall where
  source : Text
  valid : ∀ c ∈ source, c.isValidChar
  call : Tree
  arguments : Tree
  literal : Tree
  rest : List Tree
  pieces : List StringPiece
  limit : Nat
  callee : Node
  others : List Node
  isCall : call.form = .call
  callee_eq : Node.ofField (Node.ofTree (.ofSource (.ofBytes (Utf8.encode source))) (limit + 1)) call
    "function" = .ok (some callee)
  isDefine : ∃ pos registry definePos optional, IsRegistry registry ∧
    callee = .member pos (some registry) (some (.identifier definePos "define")) false optional
  arguments_eq : call.child? "arguments" = some arguments
  isArguments : arguments.type = "arguments"
  parts_eq : arguments.parts = literal :: rest
  isString : literal.form = .string
  laidOut : List.Forall₂ (StringPiece.LaidOut source) pieces literal.namedChildren
  others_eq : rest.mapM (Node.ofTree (.ofSource (.ofBytes (Utf8.encode source))) (limit + 1)) =
    .ok others

namespace DefineCall

variable (d : DefineCall)

/-- What the source text tells about the nodes of its tree. -/
def view : Node.View := .ofSource (.ofBytes (Utf8.encode d.source))

def literalNode : Node :=
  .literal (d.view.locate d.literal.label) (.text (d.pieces.flatMap StringPiece.read))
    (d.view.excerpt d.literal.label)

/-- The rule reports the literal of the call. -/
def Reported (options : List Json) : Prop :=
  ∃ n, Node.ofTree d.view (d.limit + 2) d.call = .ok n ∧
    check validName options n = .ok [⟨messageId, d.literalNode.pos⟩]

/-- The call is turned into a node that registers the element under the name that is read. -/
theorem exists_defines : ∃ n, Node.ofTree d.view (d.limit + 2) d.call = .ok n ∧
    Defines n (d.pieces.flatMap StringPiece.read) d.literalNode := by
  obtain ⟨pos, registry, definePos, optional, hregistry, hcallee⟩ := d.isDefine
  have hliteral : Node.ofTree d.view (d.limit + 1) d.literal = .ok d.literalNode :=
    Node.ofTree_of_laidOut d.valid d.isString d.laidOut d.limit
  have harguments : d.arguments.parts.mapM (Node.ofTree d.view (d.limit + 1)) =
      .ok (d.literalNode :: d.others) := by
    rw [d.parts_eq, List.mapM_cons, hliteral, ok_bind]
    exact bind_eq_ok_iff.2 ⟨_, d.others_eq, rfl⟩
  refine ⟨.call (d.view.locate d.call.label) (some d.callee) (d.literalNode :: d.others)
    d.call.hasOptionalMark, ?_, ?_⟩
  · have hfunction : Node.ofField (Node.ofTree d.view (d.limit + 1)) d.call "function" =
        .ok (some d.callee) := d.callee_eq
    rw [Node.ofTree, Node.ofTreeWith, d.isCall]
    dsimp only
    rw [hfunction, ok_bind, d.arguments_eq]
    dsimp only
    rw [if_pos d.isArguments, harguments]
    rfl
  · rw [hcallee]
    exact ⟨_, _, _, _, _, _, _, _, _, hregistry, rfl, rfl⟩

end DefineCall

/-- The rule reports a call that registers a bad name, at the literal. -/
theorem check_eq_iff_of_defines {options : List Json} (hoptions : Takes options) {n literal : Node}
    {name : Text} (h : Defines n name literal) :
    check validName options n = .ok [⟨messageId, literal.pos⟩] ↔ BadName options name := by
  rw [check, definedName?_eq, definedLiteral?_eq_some_iff.2 h, BadName, ← isLoose_iff hoptions,
    ← ElementName.isBestPractice_eq_false_iff]
  cases hvalid : ElementName.isValid name with
  | false => simp [validName, hvalid]
  | true => simp [validName, hvalid]

theorem DefineCall.reported_iff {options : List Json} (hoptions : Takes options) (d : DefineCall) :
    d.Reported options ↔ BadName options (d.pieces.flatMap StringPiece.read) := by
  obtain ⟨n, hn, hdefines⟩ := d.exists_defines
  rw [← check_eq_iff_of_defines hoptions hdefines, Reported]
  constructor
  · rintro ⟨n', hn', hcheck⟩
    cases hn.symm.trans hn'
    exact hcheck
  · exact fun hcheck => ⟨n, hn, hcheck⟩

/-- A call is reported as the value of its literal demands, unless the literal is misjudged. So of two
literals with the same code units both are reported or neither, unless one of them is misjudged and the other
is not. Only a literal with a pair of surrogates written apart or an octal escape of one digit is misjudged. -/
theorem reported_iff_badName_valueOf {options : List Json}
    (hoptions : Options.check rule (.list options) = .ok ()) :
    (∀ d : DefineCall,
      (d.Reported options ↔ BadName options (StringPiece.valueOf d.pieces)) ↔
        ¬Misjudged options d.pieces) ∧
    (∀ d₁ d₂ : DefineCall, StringPiece.unitsOf d₁.pieces = StringPiece.unitsOf d₂.pieces →
      ((d₁.Reported options ↔ d₂.Reported options) ↔
        (Misjudged options d₁.pieces ↔ Misjudged options d₂.pieces))) ∧
    ∀ pieces : List StringPiece, ¬Utf16.HasPair (pieces.flatMap StringPiece.points) →
      (∀ p ∈ pieces, ¬p.IsOctalDigit) → ¬Misjudged options pieces := by
  have htakes := check_options_eq_ok_iff.1 hoptions
  have hverdict (d : DefineCall) :
      (d.Reported options ↔ BadName options (StringPiece.valueOf d.pieces)) ↔
        ¬Misjudged options d.pieces := by
    rw [d.reported_iff htakes]
    exact badName_read_iff options d.pieces
  refine ⟨hverdict, fun d₁ d₂ hunits => ?_, fun pieces hpair hdigit => ?_⟩
  · have hvalue : StringPiece.valueOf d₁.pieces = StringPiece.valueOf d₂.pieces :=
      congrArg Utf16.decode hunits
    have h₁ := hverdict d₁
    have h₂ := hverdict d₂
    rw [hvalue] at h₁
    by_cases hbad : BadName options (StringPiece.valueOf d₂.pieces)
    · simp only [hbad, iff_true] at h₁ h₂
      rw [h₁, h₂, not_iff_not]
    · simp only [hbad, iff_false, not_iff_not] at h₁ h₂
      rw [h₁, h₂]
  · rintro (⟨hpair', -⟩ | ⟨⟨p, hp, hdigit'⟩, -⟩)
    · exact hpair hpair'
    · exact hdigit p hp hdigit'

/-- The tree of a call `customElements.define(…, C)` whose first argument is a string of some bytes. -/
def defineTree (size : Nat) (pieces : List Tree) : Tree :=
  .namedNode "call_expression" 0 (26 + size) none [
    .namedNode "member_expression" 0 21 (some "function") [
      .namedNode "identifier" 0 14 (some "object") [], .token "." 14 15,
      .namedNode "property_identifier" 15 21 (some "property") []],
    .namedNode "arguments" 21 (26 + size) (some "arguments") [
      .token "(" 21 22, .namedNode "string" 22 (22 + size) none pieces,
      .token "," (22 + size) (23 + size),
      .namedNode "identifier" (24 + size) (25 + size) none [],
      .token ")" (25 + size) (26 + size)]]

/-- A name with a character beyond the first plane, written as two escapes. -/
def pairCall : DefineCall where
  source := "customElements.define('a-\\uD83D\\uDE00', C)"
  valid := by decide
  call := defineTree 16 [.token "'" 22 23, .namedNode "string_fragment" 23 25 none [],
    .namedNode "escape_sequence" 25 31 none [], .namedNode "escape_sequence" 31 37 none [],
    .token "'" 37 38]
  arguments := _
  literal := _
  rest := _
  pieces := [.raw "a-" (by decide),
    .unit [.hex 13 true, .hex 8 false, .hex 3 false, .hex 13 true] rfl,
    .unit [.hex 13 true, .hex 14 true, .hex 0 false, .hex 0 false] rfl]
  limit := 1
  callee := _
  others := _
  isCall := rfl
  callee_eq := rfl
  isDefine := ⟨_, _, _, _, .global, rfl⟩
  arguments_eq := rfl
  isArguments := rfl
  parts_eq := rfl
  isString := rfl
  laidOut :=
    .cons ⟨⟨"customElements.define('", _, rfl, rfl, rfl⟩, rfl⟩ <|
    .cons ⟨⟨"customElements.define('a-", _, rfl, rfl, rfl⟩, rfl⟩ <|
    .cons ⟨⟨"customElements.define('a-\\uD83D", _, rfl, rfl, rfl⟩, rfl⟩ .nil
  others_eq := rfl

/-- The same name, with the character itself. -/
def plainCall : DefineCall where
  source := "customElements.define('a-😀', C)"
  valid := by decide
  call := defineTree 8 [.token "'" 22 23, .namedNode "string_fragment" 23 29 none [],
    .token "'" 29 30]
  arguments := _
  literal := _
  rest := _
  pieces := [.raw "a-😀" (by decide)]
  limit := 1
  callee := _
  others := _
  isCall := rfl
  callee_eq := rfl
  isDefine := ⟨_, _, _, _, .global, rfl⟩
  arguments_eq := rfl
  isArguments := rfl
  parts_eq := rfl
  isString := rfl
  laidOut := .cons ⟨⟨"customElements.define('", _, rfl, rfl, rfl⟩, rfl⟩ .nil
  others_eq := rfl

/-- The two calls register the same name under the default options, and only the one with the escapes is
reported. -/
theorem reported_iff_badName_valueOf_pair :
    Options.check rule (.list []) = .ok () ∧
      StringPiece.unitsOf pairCall.pieces = StringPiece.unitsOf plainCall.pieces ∧
      Misjudged [] pairCall.pieces ∧ ¬Misjudged [] plainCall.pieces ∧
      pairCall.Reported [] ∧ ¬plainCall.Reported [] := by
  have hunits : StringPiece.unitsOf pairCall.pieces = StringPiece.unitsOf plainCall.pieces := by
    decide
  have hgood : ¬BadName [] (StringPiece.valueOf plainCall.pieces) := by
    rw [BadName, ← ElementName.isBestPractice_eq_false_iff]
    rintro (h | ⟨-, h⟩) <;> exact absurd h (by decide)
  have hpair : Misjudged [] pairCall.pieces :=
    .inl ⟨⟨0xD83D, 0xDE00, by decide, by decide, [0x61, 0x2D], [], rfl⟩, hgood⟩
  have hoptions : Options.check rule (.list []) = .ok () := rfl
  obtain ⟨hverdict, hsame, hfaithful⟩ := reported_iff_badName_valueOf hoptions
  have hplain : ¬Misjudged [] plainCall.pieces := by
    refine hfaithful _ ?_ (by simp [plainCall, StringPiece.IsOctalDigit])
    rintro ⟨high, low, hhigh, -, hpart⟩
    have hnone : ∀ c ∈ plainCall.pieces.flatMap StringPiece.points, ¬Utf16.IsHigh c := by decide
    exact hnone high (hpart.subset List.mem_cons_self) hhigh
  have hsilent : ¬plainCall.Reported [] := fun h => hgood (((hverdict plainCall).2 hplain).1 h)
  refine ⟨hoptions, hunits, hpair, hplain, ?_, hsilent⟩
  by_contra h
  have hboth := (hsame pairCall plainCall hunits).1 (iff_of_false h hsilent)
  exact hplain (hboth.1 hpair)

end InvalidElementName

end ElementLint
