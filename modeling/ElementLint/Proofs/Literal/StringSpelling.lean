import ElementLint.Node.OfTree
import ElementLint.Proofs.Literal.EscapeSpelling
import ElementLint.Proofs.Number.Positional
import ElementLint.Proofs.Tree.Address
import ElementLint.Proofs.Tree.Source

/-!
# Spellings of string literals

A string literal is written as a list of pieces, `StringPiece`: characters that stand for themselves and
escape sequences. `StringPiece.text` is how a piece is written, `StringPiece.points` is what it denotes, and
`StringPiece.read` is what the program makes of it. The two differ for one kind of piece only, an octal
escape of one digit other than zero, which is read as the digit itself.

The main statement is about a tree whose children hold the pieces of a literal, wherever it stands in a
source text: the literal has the value that its pieces denote, one after the other, and so has the name of a
method that is written as this literal.
-/

namespace ElementLint

open Attempt Numeral

/-- The letters that stand for a control character after a backslash. -/
def controlLetters : List (Nat × Nat) :=
  [(0x6E, 0x0A), (0x74, 0x09), (0x72, 0x0D), (0x62, 0x08), (0x66, 0x0C), (0x76, 0x0B), (0x30, 0x00)]

/-- What ends a line of source text. -/
def lineEndings : List Text := [[0x0A], [0x0D], [0x0D, 0x0A], [0x2028], [0x2029]]

/-- A character without a meaning of its own after a backslash. -/
structure EscapesItself (c : Nat) : Prop where
  valid : c.isValidChar
  not_control : c ∉ controlLetters.map Prod.fst
  not_lineEnding : [c] ∉ lineEndings
  not_octal : ¬(0x30 ≤ c ∧ c ≤ 0x37)
  not_byte : c ≠ 0x78
  not_unit : c ≠ 0x75

/-- A piece of a string literal. -/
inductive StringPiece where
  /-- Characters that stand for themselves. -/
  | raw (t : Text) (valid : ∀ c ∈ t, c.isValidChar)
  | control (letter point : Nat) (h : (letter, point) ∈ controlLetters)
  | byte (digits : List (Digit 16)) (hlen : digits.length = 2)
  | unit (digits : List (Digit 16)) (hlen : digits.length = 4)
  | braced (digits : List (Digit 16)) (hne : digits ≠ []) (hle : Digit.number digits ≤ 0x10FFFF)
  | continuation (ending : Text) (h : ending ∈ lineEndings)
  | character (c : Nat) (h : EscapesItself c)
  | octal (digits : List (Digit 8)) (hne : digits ≠ []) (hlen : digits.length ≤ 3)
      (hle : Digit.number digits ≤ 0o377)

namespace StringPiece

def isEscape : StringPiece → Bool
  | raw .. => false
  | _ => true

def text : StringPiece → Text
  | raw t _ => t
  | control letter _ _ => [0x5C, letter]
  | byte digits _ => 0x5C :: 0x78 :: Digit.text digits
  | unit digits _ => 0x5C :: 0x75 :: Digit.text digits
  | braced digits _ _ => 0x5C :: 0x75 :: 0x7B :: (Digit.text digits ++ [0x7D])
  | continuation ending _ => 0x5C :: ending
  | character c _ => [0x5C, c]
  | octal digits _ _ _ => 0x5C :: Digit.text digits

/-- The code points that a piece denotes. -/
def points : StringPiece → Text
  | raw t _ => t
  | control _ point _ => [point]
  | byte digits _ | unit digits _ | braced digits _ _ => [Digit.number digits]
  | continuation .. => []
  | character c _ => [c]
  | octal digits _ _ _ => [Digit.number digits]

/-- An octal escape of one digit other than zero. -/
def IsOctalDigit : StringPiece → Prop
  | octal [d] _ _ _ => d.value ≠ 0
  | _ => False

/-- What the program makes of a piece. -/
def read : StringPiece → Text
  | octal [d] _ _ _ => [if d.value = 0 then 0 else d.char]
  | p => p.points

theorem read_eq_points {p : StringPiece} (h : ¬p.IsOctalDigit) : p.read = p.points := by
  unfold read
  split
  · rename_i d _ _ _
    have hzero : d.value = 0 := not_not.1 h
    rw [if_pos hzero, points, Digit.number_singleton, hzero]
    rfl
  · rfl

theorem lt_of_mem_points {p : StringPiece} {c : Nat} (hc : c ∈ p.points) : c < 0x110000 := by
  have hvalid {c : Nat} (h : c.isValidChar) : c < 0x110000 := by
    have hbound : c < 0xD800 ∨ 0xDFFF < c ∧ c < 0x110000 := h
    omega
  cases p with
  | raw t valid => exact hvalid (valid c hc)
  | control letter point h =>
    have hall : ∀ e ∈ controlLetters, e.2 < 0x110000 := by decide
    exact List.mem_singleton.1 hc ▸ hall _ h
  | byte digits hlen =>
    have hlt := Digit.number_lt_of_length_eq (by decide) hlen
    rw [List.mem_singleton.1 hc]
    omega
  | unit digits hlen =>
    have hlt := Digit.number_lt_of_length_eq (by decide) hlen
    rw [List.mem_singleton.1 hc]
    omega
  | braced digits hne hle =>
    rw [List.mem_singleton.1 hc]
    omega
  | continuation => cases hc
  | character c' h => exact List.mem_singleton.1 hc ▸ hvalid h.valid
  | octal digits hne hlen hle =>
    rw [List.mem_singleton.1 hc]
    omega

end StringPiece

namespace Escape

theorem point_of_lt {n : Nat} (h : n < 0x110000) : point n = .ok [n] := by
  rw [point, if_neg (by omega), if_neg (by omega), Int.toNat_natCast]

/-- Digits are read as the code point that they stand for by their places. -/
theorem pointOf_text {base letter : Nat} (hbase : base ≤ 16) (hletter : marker? base = some letter)
    {digits : List (Digit base)} (hne : digits ≠ []) (h : Digit.number digits < 0x110000) :
    pointOf base (Digit.text digits) = .ok [Digit.number digits] := by
  rw [pointOf_digits hbase hletter (Digit.text_ne_nil hne) (Digit.isDigitOf_of_mem_text (by omega) digits),
    Digit.value_text (by omega), point_of_lt h]

theorem unicodeDigits_text (digits : List (Digit 16)) :
    unicodeDigits (Digit.text digits) = Digit.text digits := by
  rw [unicodeDigits.eq_def]
  split
  · rename_i heq
    have hbrace : isDigitOf 16 0x7B = true :=
      Digit.isDigitOf_of_mem_text (by decide) digits _ (heq ▸ List.mem_cons_self)
    exact absurd hbrace (by decide)
  · rfl

theorem isLineEnd_eq_false_of_notMem {c : Nat} (h : [c] ∉ lineEndings) : isLineEnd c = false := by
  simpa [lineEndings, isLineEnd, and_assoc] using h

theorem single_of_escapesItself {c : Nat} (h : EscapesItself c) : single c = c := by
  have hcontrol := h.not_control
  unfold single
  split <;> first | rfl | exact absurd (by decide) hcontrol

theorem decode_control {letter point : Nat} (h : (letter, point) ∈ controlLetters) :
    decode [0x5C, letter] = .ok [point] := by
  simp only [controlLetters, List.mem_cons, Prod.mk.injEq, List.not_mem_nil, or_false] at h
  rcases h with ⟨rfl, rfl⟩ | ⟨rfl, rfl⟩ | ⟨rfl, rfl⟩ | ⟨rfl, rfl⟩ | ⟨rfl, rfl⟩ | ⟨rfl, rfl⟩ |
    ⟨rfl, rfl⟩ <;> rfl

theorem decode_continuation {ending : Text} (h : ending ∈ lineEndings) :
    decode (0x5C :: ending) = .ok [] := by
  simp only [lineEndings, List.mem_cons, List.not_mem_nil, or_false] at h
  rcases h with rfl | rfl | rfl | rfl | rfl <;> rfl

/-- A single character that is no marker is read as `single` says. -/
theorem decode_single {c : Nat} (hline : isLineEnd c = false) (hu : c ≠ 0x75) :
    decode [0x5C, c] = .ok [single c] := by
  rw [decode, List.tail_cons, decodeBody, hline, if_neg (by decide), if_neg (by simp),
    if_neg (by simp), if_neg hu]

theorem single_octalDigit (d : Digit 8) : single d.char = if d.value = 0 then 0 else d.char := by
  rw [Digit.char_eq (by decide)]
  have hall : ∀ k : Fin 8, single (0x30 + k) = if k = 0 then 0 else 0x30 + k.val := by decide
  exact hall d.value

theorem decode_octal (d d' : Digit 8) (rest : List (Digit 8)) :
    decode (0x5C :: Digit.text (d :: d' :: rest)) = pointOf 8 (Digit.text (d :: d' :: rest)) := by
  have hdigits : ∀ c ∈ Digit.text (d :: d' :: rest), isDigitOf 8 c = true :=
    Digit.isDigitOf_of_mem_text (by decide) _
  rw [Digit.text_cons] at hdigits ⊢
  rw [decode, List.tail_cons, decodeBody_octal hdigits (by simp)]

/-- An escape sequence is read as `StringPiece.read` says. -/
theorem decode_text {p : StringPiece} (hescape : p.isEscape = true) : decode p.text = .ok p.read := by
  have hbound : ∀ c ∈ p.points, c < 0x110000 := fun _ => StringPiece.lt_of_mem_points
  cases p with
  | raw => cases hescape
  | control letter point h => exact decode_control h
  | byte digits hlen =>
    rw [StringPiece.text, decode, List.tail_cons, decodeBody_byte (by rw [Digit.length_text, hlen])]
    exact pointOf_text (by decide) rfl (by rintro rfl; cases hlen) (hbound _ List.mem_cons_self)
  | unit digits hlen =>
    rw [StringPiece.text, decode, List.tail_cons, decodeBody_unicode, unicodeDigits_text]
    exact pointOf_text (by decide) rfl (by rintro rfl; cases hlen) (hbound _ List.mem_cons_self)
  | braced digits hne hle =>
    rw [StringPiece.text, decode, List.tail_cons, decodeBody_unicode, unicodeDigits,
      List.dropLast_concat]
    exact pointOf_text (by decide) rfl hne (hbound _ List.mem_cons_self)
  | continuation ending h => exact decode_continuation h
  | character c h =>
    rw [StringPiece.text, decode_single (isLineEnd_eq_false_of_notMem h.not_lineEnding) h.not_unit,
      single_of_escapesItself h]
    rfl
  | octal digits hne hlen hle =>
    obtain ⟨d, rest, rfl⟩ := List.exists_cons_of_ne_nil hne
    cases rest with
    | nil =>
      have hchar := Digit.char_eq (by decide) d
      rw [StringPiece.text, Digit.text_cons, Digit.text_nil,
        decode_single (isLineEnd_eq_false (by omega) (by omega)) (by omega), single_octalDigit]
      rfl
    | cons d' rest =>
      rw [StringPiece.text, decode_octal]
      exact pointOf_text (by decide) rfl hne (hbound _ List.mem_cons_self)

/-- One octal digit is read as itself, two are read as a number. -/
example : decode "\\1" = .ok "1" ∧ decode "\\01" = .ok [1] := ⟨rfl, rfl⟩

end Escape

/-- A tree holds a piece of a literal in a source text. -/
def StringPiece.LaidOut (source : Text) (p : StringPiece) (t : Tree) : Prop :=
  t.label.Spans source p.text ∧
    t.type = if p.isEscape then "escape_sequence" else "string_fragment"

namespace Node

section LaidOut

variable {source : Text} (hsource : ∀ c ∈ source, c.isValidChar)
include hsource

theorem stringPiece_of_laidOut {p : StringPiece} {t : Tree} (h : p.LaidOut source t) :
    stringPiece (.ofSource (.ofBytes (Utf8.encode source))) t = .ok p.read := by
  obtain ⟨hspans, htype⟩ := h
  have htext : (View.ofSource (.ofBytes (Utf8.encode source))).excerpt t.label = p.text :=
    hspans.excerpt_eq hsource
  rw [stringPiece, htext, htype]
  cases hescape : p.isEscape with
  | true =>
    rw [if_pos rfl, if_pos rfl, Escape.decode_text hescape]
    rfl
  | false =>
    cases p with
    | raw => rfl
    | _ => cases hescape

/-- A string literal is read piece by piece. -/
theorem stringValue_of_laidOut {pieces : List StringPiece} {t : Tree}
    (h : List.Forall₂ (StringPiece.LaidOut source) pieces t.namedChildren) :
    stringValue (.ofSource (.ofBytes (Utf8.encode source))) t =
      .ok (pieces.flatMap StringPiece.read) := by
  rw [stringValue, map_eq_ok_iff]
  refine ⟨pieces.map StringPiece.read, ?_, List.flatMap_def.symm⟩
  rw [mapM_eq_ok_iff, List.forall₂_map_right_iff]
  exact (h.imp fun p c hc => stringPiece_of_laidOut hsource hc).flip

theorem ofTree_of_laidOut {pieces : List StringPiece} {t : Tree} (hform : t.form = .string)
    (hpieces : List.Forall₂ (StringPiece.LaidOut source) pieces t.namedChildren) (limit : Nat) :
    let v := View.ofSource (.ofBytes (Utf8.encode source))
    ofTree v (limit + 1) t =
      .ok (.literal (v.locate t.label) (.text (pieces.flatMap StringPiece.read))
        (v.excerpt t.label)) := by
  dsimp only
  rw [ofTree, ofTreeWith, hform]
  dsimp only
  rw [stringValue_of_laidOut hsource hpieces]
  rfl

/-- A string literal without octal escapes of one digit denotes what its pieces denote, one after the other,
and it does so as the name of a method as well. -/
theorem string_denotes_pieces {pieces : List StringPiece} {t : Tree} (hform : t.form = .string)
    (hpieces : List.Forall₂ (StringPiece.LaidOut source) pieces t.namedChildren)
    (hoctal : ∀ p ∈ pieces, ¬p.IsOctalDigit) (limit : Nat) :
    let v := View.ofSource (.ofBytes (Utf8.encode source))
    ofTree v (limit + 1) t =
        .ok (.literal (v.locate t.label) (.text (pieces.flatMap StringPiece.points))
          (v.excerpt t.label)) ∧
      ∀ m : Tree, m.form = .method → m.child? "name" = some t →
        ofTree v (limit + 1) m = do
          let body ← ofField (ofTree v limit) m "body"
          let params ← ofField (ofTree v limit) m "parameters"
          return .method (v.locate m.label) (some (pieces.flatMap StringPiece.points)) params
            (block? body) := by
  have hread : pieces.flatMap StringPiece.read = pieces.flatMap StringPiece.points :=
    List.flatMap_congr fun p hp => StringPiece.read_eq_points (hoctal p hp)
  rw [← hread]
  refine ⟨ofTree_of_laidOut hsource hform hpieces limit, fun m hmethod hname => ?_⟩
  have hmethodName : methodName (.ofSource (.ofBytes (Utf8.encode source))) m =
      .ok (some (pieces.flatMap StringPiece.read)) := by
    rw [methodName, hname]
    dsimp only
    rw [hform]
    dsimp only
    rw [stringValue_of_laidOut hsource hpieces]
    rfl
  rw [ofTree, ofTreeWith, hmethod]
  dsimp only
  rw [hmethodName]
  rfl

end LaidOut

/-- A class with a method whose name is a string: a character of two bytes, two escapes, a continued line and
another escape. -/
def spelledMethod : Text := "class A \x7b 'é\\x62\\u\x7b01F600\x7d\\\u2028\\n'() \x7b\x7d \x7d"

def spelledPieces : List StringPiece :=
  [.raw "é" (by decide), .byte [.hex 6 false, .hex 2 false] rfl,
    .braced [.hex 0 false, .hex 1 false, .hex 15 true, .hex 6 false, .hex 0 false, .hex 0 false] (by simp)
      (by decide),
    .continuation [0x2028] (by decide), .control 0x6E 0x0A (by decide)]

def spelledName : Tree :=
  .namedNode "string" 10 34 (some "name") [
    .token "'" 10 11,
    .namedNode "string_fragment" 11 13 none [],
    .namedNode "escape_sequence" 13 17 none [],
    .namedNode "escape_sequence" 17 27 none [],
    .namedNode "escape_sequence" 27 31 none [],
    .namedNode "escape_sequence" 31 33 none [],
    .token "'" 33 34]

def spelledMethodTree : Tree :=
  .namedNode "method_definition" 10 39 none [
    spelledName,
    .namedNode "formal_parameters" 34 36 (some "parameters") [.token "(" 34 35, .token ")" 35 36],
    .namedNode "statement_block" 37 39 (some "body") [.token "\x7b" 37 38, .token "\x7d" 38 39]]

theorem laidOut_spelledPieces :
    List.Forall₂ (StringPiece.LaidOut spelledMethod) spelledPieces spelledName.namedChildren :=
  .cons ⟨⟨"class A \x7b '", _, rfl, rfl, rfl⟩, rfl⟩ <|
  .cons ⟨⟨"class A \x7b 'é", _, rfl, rfl, rfl⟩, rfl⟩ <|
  .cons ⟨⟨"class A \x7b 'é\\x62", _, rfl, rfl, rfl⟩, rfl⟩ <|
  .cons ⟨⟨"class A \x7b 'é\\x62\\u\x7b01F600\x7d", _, rfl, rfl, rfl⟩, rfl⟩ <|
  .cons ⟨⟨"class A \x7b 'é\\x62\\u\x7b01F600\x7d\\\u2028", _, rfl, rfl, rfl⟩, rfl⟩ .nil

/-- The continued line is gone from the name of the method, and the escapes are decoded. -/
theorem string_denotes_pieces_method :
    (∀ c ∈ spelledMethod, c.isValidChar) ∧ spelledName.form = .string ∧
      List.Forall₂ (StringPiece.LaidOut spelledMethod) spelledPieces spelledName.namedChildren ∧
      (∀ p ∈ spelledPieces, ¬p.IsOctalDigit) ∧ spelledMethodTree.form = .method ∧
      spelledMethodTree.child? "name" = some spelledName ∧
      ofTree (.ofSource (.ofBytes (Utf8.encode spelledMethod))) 2 spelledName =
        .ok (.literal ⟨1, 11⟩ (.text "éb😀\n") "'é\\x62\\u\x7b01F600\x7d\\\u2028\\n'") ∧
      ofTree (.ofSource (.ofBytes (Utf8.encode spelledMethod))) 2 spelledMethodTree =
        .ok (.method ⟨1, 11⟩ (some "éb😀\n") (some (.other ⟨1, 32⟩ "formal_parameters" []))
          (some (.block ⟨1, 35⟩ []))) := by
  have hvalid : ∀ c ∈ spelledMethod, c.isValidChar := by decide
  have hoctal : ∀ p ∈ spelledPieces, ¬p.IsOctalDigit := by
    simp [spelledPieces, StringPiece.IsOctalDigit]
  obtain ⟨hliteral, hmethod⟩ :=
    string_denotes_pieces hvalid rfl laidOut_spelledPieces hoctal 1
  refine ⟨hvalid, rfl, laidOut_spelledPieces, hoctal, rfl, rfl, hliteral.trans ?_,
    (hmethod spelledMethodTree rfl rfl).trans ?_⟩
  · rfl
  · rfl

end Node

end ElementLint
