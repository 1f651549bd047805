import Mathlib.Data.List.TakeWhile
import ElementLint.Proofs.Tree.Address
import ElementLint.Tree.Problem

/-!
# The piece of text that a message shows

A message on a piece of text that fits nowhere shows the start of it. Every line break is white space, so that
a text without the white space at its ends starts with a character of its first line. Hence what is shown is a
part of one line and starts with no white space, and it is empty only if there is nothing to show
(`cleanExcerpt_snippet`).
-/

namespace ElementLint

namespace Text

theorem exists_eq_append_stripStart (t : Text) :
    ∃ before, t = before ++ stripStart t ∧ ∀ c ∈ before, isBlank c = true :=
  ⟨t.takeWhile isBlank, List.takeWhile_append_dropWhile.symm, fun _ => List.mem_takeWhile_imp⟩

theorem exists_eq_stripEnd_append (t : Text) :
    ∃ after, t = stripEnd t ++ after ∧ ∀ c ∈ after, isBlank c = true := by
  obtain ⟨after, heq, hafter⟩ := exists_eq_append_stripStart t.reverse
  refine ⟨after.reverse, ?_, fun c hc => hafter c (List.mem_reverse.1 hc)⟩
  rw [stripEnd, ← stripStart, ← List.reverse_append, ← heq, List.reverse_reverse]

theorem isBlank_head_stripStart {t rest : Text} {c : Nat} (h : stripStart t = c :: rest) :
    isBlank c = false := by
  have hhead := List.head?_dropWhile_not isBlank t
  rw [← stripStart, h] at hhead
  exact hhead

/-- A text is cut in three: white space, what is left of it without, and white space. -/
theorem exists_eq_append_strip (t : Text) :
    ∃ before after, t = before ++ strip t ++ after ∧
      (∀ c ∈ before, isBlank c = true) ∧ ∀ c ∈ after, isBlank c = true := by
  obtain ⟨before, hstart, hbefore⟩ := exists_eq_append_stripStart t
  obtain ⟨after, hend, hafter⟩ := exists_eq_stripEnd_append (stripStart t)
  refine ⟨before, after, ?_, hbefore, hafter⟩
  rw [List.append_assoc, strip, ← hend, ← hstart]

theorem strip_isInfix (t : Text) : strip t <:+: t := by
  obtain ⟨before, after, heq, -, -⟩ := exists_eq_append_strip t
  exact ⟨before, after, heq.symm⟩

theorem isBlank_head_strip {t rest : Text} {c : Nat} (h : strip t = c :: rest) : isBlank c = false := by
  obtain ⟨after, hend, -⟩ := exists_eq_stripEnd_append (stripStart t)
  rw [← strip, h] at hend
  exact isBlank_head_stripStart hend

/-- Nothing is left of a text if it is white space only. -/
theorem strip_eq_nil_iff {t : Text} : strip t = [] ↔ ∀ c ∈ t, isBlank c = true := by
  constructor
  · intro h
    obtain ⟨before, after, heq, hbefore, hafter⟩ := exists_eq_append_strip t
    rw [h, List.append_nil] at heq
    rw [heq]
    exact List.forall_mem_append.2 ⟨hbefore, hafter⟩
  · intro h
    by_contra hne
    obtain ⟨c, rest, heq⟩ := List.exists_cons_of_ne_nil hne
    have hmem : c ∈ t := (strip_isInfix t).subset (heq ▸ List.mem_cons_self)
    cases (h c hmem).symm.trans (isBlank_head_strip heq)

theorem firstLine_isPrefix (t : Text) : firstLine t <+: t := List.takeWhile_prefix _

theorem isLineBreak_of_mem_firstLine {t : Text} {c : Nat} (h : c ∈ firstLine t) : isLineBreak c = false := by
  simpa using List.mem_takeWhile_imp h

/-- A character that can be seen ends no line. -/
theorem firstLine_cons_of_visible {t : Text} {c : Nat} (h : isBlank c = false) :
    firstLine (c :: t) = c :: firstLine t := by
  have hbreak : isLineBreak c = false := by
    cases hc : isLineBreak c with
    | false => rfl
    | true => cases h.symm.trans (isBlank_of_isLineBreak hc)
  have hgoes : (!isLineBreak c) = true := by rw [hbreak]; rfl
  exact List.takeWhile_cons_of_pos hgoes

end Text

namespace Problem

open Text

/-- A piece of a text as a message can show it. -/
structure CleanExcerpt (t piece : Text) : Prop where
  part : piece <:+: t
  length_le : piece.length ≤ 20
  oneLine : ∀ c ∈ piece, isLineBreak c = false
  visible : ∀ c rest, piece = c :: rest → isBlank c = false
  eq_nil_iff : piece = [] ↔ ∀ c ∈ t, isBlank c = true

theorem snippet_isPrefix (t : Text) : snippet t <+: firstLine (strip t) := List.take_prefix _ _

/-- The piece of a text starts as the text does without the white space at its ends. -/
theorem snippet_eq_cons {t rest : Text} {c : Nat} (h : strip t = c :: rest) :
    ∃ more, snippet t = c :: more := by
  rw [snippet, h, firstLine_cons_of_visible (isBlank_head_strip h)]
  exact ⟨_, rfl⟩

theorem cleanExcerpt_snippet (t : Text) : CleanExcerpt t (snippet t) where
  part := ((snippet_isPrefix t).trans (firstLine_isPrefix (strip t))).isInfix.trans (strip_isInfix t)
  length_le := List.length_take_le _ _
  oneLine := fun _ hc => isLineBreak_of_mem_firstLine ((snippet_isPrefix t).subset hc)
  visible := by
    intro c rest hsnippet
    cases hstrip : strip t with
    | nil =>
      rw [snippet, hstrip] at hsnippet
      cases hsnippet
    | cons c' rest' =>
      obtain ⟨more, hmore⟩ := snippet_eq_cons hstrip
      cases hmore.symm.trans hsnippet
      exact isBlank_head_strip hstrip
  eq_nil_iff := by
    rw [← strip_eq_nil_iff]
    cases hstrip : strip t with
    | nil => simp [snippet, hstrip, firstLine]
    | cons c rest =>
      obtain ⟨more, hmore⟩ := snippet_eq_cons hstrip
      simp [hmore]

def unexpectedMessage (piece : Text) : Text := "Unexpected token '" ++ piece ++ "'"

theorem oneLine_unexpectedMessage {piece : Text} (h : ∀ c ∈ piece, isLineBreak c = false) :
    ∀ c ∈ unexpectedMessage piece, isLineBreak c = false := by
  have hbefore : ∀ c ∈ ofString "Unexpected token '", isLineBreak c = false := by decide
  have hafter : ∀ c ∈ ofString "'", isLineBreak c = false := by decide
  exact List.forall_mem_append.2 ⟨List.forall_mem_append.2 ⟨hbefore, h⟩, hafter⟩

/-- A problem of a tree is the one at some node of it. -/
theorem exists_of_mem_inPending {s : Source} {pending : List Tree} {p : Problem}
    (h : p ∈ inPending s pending) :
    ∃ t ∈ pending, ∃ a u, t.at? a = some u ∧ at? s u.label = some p := by
  fun_induction inPending s pending with
  | case1 => cases h
  | case2 t rest q hq ih =>
    rcases List.mem_cons.1 h with rfl | h
    · exact ⟨t, List.mem_cons_self, [], t, rfl, hq⟩
    · obtain ⟨u, hu, hp⟩ := ih h
      exact ⟨u, List.mem_cons_of_mem t hu, hp⟩
  | case3 t rest _ ih =>
    obtain ⟨u, hu, hp⟩ := ih h
    split at hu
    · rcases List.mem_append.1 hu with hu | hu
      · obtain ⟨i, hi⟩ := List.getElem?_of_mem (List.mem_reverse.1 hu)
        obtain ⟨a, v, hv, hp⟩ := hp
        refine ⟨t, List.mem_cons_self, i :: a, v, ?_, hp⟩
        rw [Tree.at?_cons, hi, Option.bind_some, hv]
      · exact ⟨u, List.mem_cons_of_mem t hu, hp⟩
    · exact ⟨u, List.mem_cons_of_mem t hu, hp⟩

theorem exists_of_mem_ofTree {s : Source} {root : Tree} {p : Problem} (h : p ∈ ofTree s root) :
    ∃ a t, root.at? a = some t ∧ at? s t.label = some p := by
  rw [ofTree] at h
  split at h
  · obtain ⟨t, ht, hp⟩ := exists_of_mem_inPending (List.mem_mergeSort.1 h)
    cases List.mem_singleton.1 ht
    exact hp
  · cases h

/-- The message on a piece of text that fits nowhere quotes a clean excerpt of it and is one line. This holds of
all that is reported of a tree, since every problem of a tree is the one at some node of it. -/
theorem unexpected_quotes_clean_excerpt (s : Source) :
    (∀ l : Label, l.type = "ERROR" →
      ∃ piece, at? s l = some ⟨s.locate l, unexpectedMessage piece⟩ ∧
        CleanExcerpt (s.excerpt l) piece ∧ ∀ c ∈ unexpectedMessage piece, isLineBreak c = false) ∧
    ∀ root, ∀ p ∈ ofTree s root, ∃ a t, root.at? a = some t ∧ at? s t.label = some p := by
  constructor
  · intro l hl
    have hclean := cleanExcerpt_snippet (s.excerpt l)
    exact ⟨snippet (s.excerpt l), if_pos hl, hclean, oneLine_unexpectedMessage hclean.oneLine⟩
  · exact fun root p => exists_of_mem_ofTree

/-- The bytes of a text over three lines, of which the first ends at a line separator and the second at a
vertical tab. -/
def brokenBytes : List UInt8 := Utf8.encode "\u2028 é)\u000b;"

/-- A node for the whole text, which fits nowhere. -/
def brokenLabel : Label where
  type := "ERROR"
  start := 0
  stop := 9
  row := 0
  column := 0
  named := true
  hasError := true

/-- Of this text the message shows the second line. -/
theorem unexpected_quotes_clean_excerpt_lines :
    brokenLabel.type = "ERROR" ∧
      at? (.ofBytes brokenBytes) brokenLabel = some ⟨⟨1, 1⟩, unexpectedMessage "é)"⟩ ∧
      CleanExcerpt ((Source.ofBytes brokenBytes).excerpt brokenLabel) "é)" ∧
      ∀ c ∈ unexpectedMessage "é)", isLineBreak c = false := by
  have hproblem : at? (.ofBytes brokenBytes) brokenLabel =
      some ⟨⟨1, 1⟩, unexpectedMessage "é)"⟩ := by decide
  obtain ⟨piece, hpiece, hclean, honeLine⟩ :=
    (unexpected_quotes_clean_excerpt (.ofBytes brokenBytes)).1 brokenLabel rfl
  rw [hproblem] at hpiece
  injection hpiece with hpiece
  injection hpiece with _ hmessage
  have heq : ofString "é)" = piece := List.append_cancel_left (List.append_cancel_right hmessage)
  rw [heq]
  exact ⟨rfl, heq ▸ hproblem, hclean, honeLine⟩

end Problem

end ElementLint
