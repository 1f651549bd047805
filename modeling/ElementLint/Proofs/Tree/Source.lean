import Mathlib.Data.List.Infix
import ElementLint.Proofs.Text.Utf8
import ElementLint.Tree.Source

/-!
# Positions in a source text

A column is the number of characters to which the bytes before a place on its line decode. Bytes that are
added at the end never take a character away: they go on with an unfinished character, which counts as one
already, or they start new ones. So positions ascend with the places, `Source.locate_le`, whether the
text is UTF-8 or not.

A label that spans a part of a text, `Label.Spans`, has that part as its excerpt.
-/

namespace ElementLint

namespace Utf8

theorem length_decodeAfter_pos (p : Pending) (bytes : List UInt8) :
    0 < (decodeAfter p bytes).length := by
  induction bytes generalizing p with
  | nil => exact Nat.one_pos
  | cons b bytes ih =>
    unfold decodeAfter
    dsimp only
    split
    · split
      · exact Nat.succ_pos _
      · exact ih _
    · split <;> exact Nat.succ_pos _

/-- The beginning of some bytes decodes to no more characters than all of them, also inside a character. -/
theorem length_decode_le_append (bytes more : List UInt8) :
    (decode bytes).length ≤ (decode (bytes ++ more)).length ∧
      ∀ p, (decodeAfter p bytes).length ≤ (decodeAfter p (bytes ++ more)).length := by
  induction bytes with
  | nil => exact ⟨Nat.zero_le _, fun p => length_decodeAfter_pos p more⟩
  | cons b bytes ih =>
    obtain ⟨hbetween, hinside⟩ := ih
    constructor
    · rw [List.cons_append, decode, decode]
      split
      · exact Nat.succ_le_succ hbetween
      · exact Nat.succ_le_succ hbetween
      · exact hinside _
    · intro p
      rw [List.cons_append]
      unfold decodeAfter
      dsimp only
      split
      · split
        · exact Nat.succ_le_succ hbetween
        · exact hinside _
      · split
        · exact Nat.succ_le_succ (Nat.succ_le_succ hbetween)
        · exact Nat.succ_le_succ (Nat.succ_le_succ hbetween)
        · exact Nat.succ_le_succ (hinside _)

theorem length_decodeLossy_take_le (bytes : List UInt8) {k l : Nat} (h : k ≤ l) :
    (decodeLossy (bytes.take k)).length ≤ (decodeLossy (bytes.take l)).length := by
  obtain ⟨more, hmore⟩ := List.take_prefix_take_left h (l := bytes)
  rw [decodeLossy, decodeLossy, List.length_map, List.length_map, ← hmore]
  exact (length_decode_le_append (bytes.take k) more).1

end Utf8

/-- Whether a node starts no later than another one: on an earlier line, or on the same line with no more
bytes before it. -/
def Label.StartsBy (l l' : Label) : Prop :=
  l.row < l'.row ∨ (l.row = l'.row ∧ l.column ≤ l'.column)

instance (l l' : Label) : Decidable (l.StartsBy l') := inferInstanceAs (Decidable (_ ∨ _))

namespace Source

/-- Positions ascend with the places of the bytes. -/
theorem locate_le (s : Source) {l l' : Label} (h : l.StartsBy l') :
    (s.locate l).le (s.locate l') = true := by
  rw [Position.le_iff]
  rcases h with h | ⟨hrow, hcolumn⟩
  · exact .inl (Nat.succ_lt_succ h)
  · refine .inr ⟨congrArg Nat.succ hrow, ?_⟩
    rw [locate, locate, hrow]
    exact Nat.succ_le_succ (Utf8.length_decodeLossy_take_le _ hcolumn)

end Source

/-- The bytes from a label's first to its last are those of a part of a text. -/
def Label.Spans (l : Label) (source part : Text) : Prop :=
  ∃ before after, source = before ++ part ++ after ∧ l.start = (Utf8.encode before).length ∧
    l.stop = l.start + (Utf8.encode part).length

theorem Label.Spans.excerpt_eq {l : Label} {source part : Text} (h : l.Spans source part)
    (hsource : ∀ c ∈ source, c.isValidChar) :
    (Source.ofBytes (Utf8.encode source)).excerpt l = part := by
  obtain ⟨before, after, rfl, hstart, hstop⟩ := h
  have hpart : ∀ c ∈ part, c.isValidChar := fun c hc =>
    hsource c (List.mem_append_left _ (List.mem_append_right _ hc))
  rw [Source.excerpt, Source.slice, Source.ofBytes, hstop, Nat.add_sub_cancel_left, hstart,
    Utf8.encode_append, Utf8.encode_append, List.append_assoc, List.drop_left, List.take_left,
    Utf8.decodeLossy_encode hpart]

end ElementLint
