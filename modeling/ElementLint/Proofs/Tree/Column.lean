import Mathlib.Data.List.DropRight
import ElementLint.Grammar.Character
import ElementLint.Proofs.Text.Pieces
import ElementLint.Proofs.Text.Utf8
import ElementLint.Tree.Source

/-!
# Columns count characters

A concrete tree places its nodes by the bytes before them on their line. In the bytes of a text the lines
are those of the text, and so many characters are read from the first bytes of a line as have their first
byte among them, `Utf8.startsBefore`: one that is cut off is read as one replacement character. So the
column of any place is one more than the number of characters that start before it, and a place between two
characters has the line and the column of a reader who counts characters.
-/

namespace ElementLint

namespace Utf8

/-- How many characters of a text have their first byte before an offset. -/
def startsBefore (t : Text) (offset : Nat) : Nat :=
  (List.range t.length).countP fun i => (encode (t.take i)).length < offset

theorem startsBefore_zero (t : Text) : startsBefore t 0 = 0 := by
  simp [startsBefore]

theorem startsBefore_cons (c : Nat) (t : Text) (offset : Nat) :
    startsBefore (c :: t) offset =
      startsBefore t (offset - (encodePoint c).length) + if 0 < offset then 1 else 0 := by
  rw [startsBefore, List.length_cons, List.range_succ_eq_map, List.countP_cons, List.countP_map]
  congr 1
  · apply List.countP_congr
    intro i _
    simp only [Function.comp_apply, Nat.succ_eq_add_one, List.take_succ_cons, encode_cons,
      List.length_append, decide_eq_true_eq]
    omega
  · rw [List.take_zero, encode_nil, List.length_nil]
    exact if_congr decide_eq_true_iff rfl rfl

/-- Up to the end of its first part, the characters of a text that start are those of this part. -/
theorem startsBefore_append (s t : Text) : startsBefore (s ++ t) (encode s).length = s.length := by
  induction s with
  | nil => exact startsBefore_zero t
  | cons c s ih =>
    have hpos := length_encodePoint_pos c
    rw [List.cons_append, startsBefore_cons, encode_cons, List.length_append, Nat.add_sub_cancel_left,
      ih, if_pos (by omega), List.length_cons]

/-- The first bytes of a text are read as the characters that start among them. -/
theorem length_decodeLossy_take_encode {t : Text} (h : ∀ c ∈ t, c.isValidChar) (offset : Nat) :
    (decodeLossy ((encode t).take offset)).length = startsBefore t offset := by
  rw [decodeLossy, List.length_map]
  induction t generalizing offset with
  | nil =>
    rw [encode_nil, List.take_nil]
    rfl
  | cons c t ih =>
    obtain ⟨hc, ht⟩ := List.forall_mem_cons.1 h
    rw [startsBefore_cons, encode_cons]
    by_cases hwhole : (encodePoint c).length ≤ offset
    · have hpos := length_encodePoint_pos c
      rw [List.take_append, List.take_of_length_le hwhole, decode_encodePoint_append hc,
        List.length_cons, ih ht, if_pos (by omega)]
    · rw [List.take_append_of_le_length (by omega), Nat.sub_eq_zero_of_le (by omega), startsBefore_zero]
      by_cases hoffset : 0 < offset
      · rw [decode_take_encodePoint hc hoffset (by omega), if_pos hoffset]
        rfl
      · rw [if_neg hoffset, Nat.eq_zero_of_not_pos hoffset, List.take_zero]
        rfl

end Utf8

namespace Source

theorem splitLines_ne_nil (bytes : List UInt8) : splitLines bytes ≠ [] := by
  cases bytes with
  | nil => simp [splitLines]
  | cons b bytes =>
    rw [splitLines]
    split
    · simp
    · split <;> simp

theorem splitLines_cons_newline (bytes : List UInt8) :
    splitLines (0x0A :: bytes) = [] :: splitLines bytes := by
  obtain ⟨line, lines, h⟩ := List.exists_cons_of_ne_nil (splitLines_ne_nil bytes)
  simp [splitLines, h]

/-- Bytes without a newline stand on the line of the byte after them. -/
theorem splitLines_append {bytes rest line : List UInt8} {lines : List (List UInt8)}
    (hbytes : 0x0A ∉ bytes) (h : splitLines rest = line :: lines) :
    splitLines (bytes ++ rest) = (bytes ++ line) :: lines := by
  induction bytes with
  | nil => exact h
  | cons b bytes ih =>
    obtain ⟨hb, hbytes⟩ := not_or.1 (mt List.mem_cons.2 hbytes)
    rw [List.cons_append, splitLines, ih hbytes]
    exact if_neg (Ne.symm hb)

/-- The lines of the bytes of a text are the bytes of its lines. -/
theorem splitLines_encode {t : Text} (h : ∀ c ∈ t, c.isValidChar) :
    splitLines (Utf8.encode t) = (Text.splitOn 0x0A t).map Utf8.encode := by
  induction t with
  | nil => rfl
  | cons c t ih =>
    obtain ⟨hvalid, ht⟩ := List.forall_mem_cons.1 h
    rw [Utf8.encode_cons]
    by_cases hc : c = 0x0A
    · subst hc
      rw [Utf8.encodePoint_newline, List.singleton_append, splitLines_cons_newline, ih ht,
        Text.splitOn_cons_self, List.map_cons, Utf8.encode_nil]
    · obtain ⟨line, lines, hlines⟩ := List.exists_cons_of_ne_nil (Text.splitOn_ne_nil 0x0A t)
      have hrest := ih ht
      rw [hlines, List.map_cons] at hrest
      rw [splitLines_append (Utf8.newline_notMem_encodePoint hvalid hc) hrest,
        Text.splitOn_cons_of_ne hc hlines, List.map_cons, Utf8.encode_cons]

/-- The position of a place on a line of a text. -/
theorem position_of_line {t line : Text} (h : ∀ c ∈ t, c.isValidChar) {row : Nat}
    (hline : (Text.splitOn 0x0A t)[row]? = some line) (column : Nat) :
    (ofBytes (Utf8.encode t)).position row column =
      ⟨row + 1, 1 + Utf8.startsBefore line column⟩ := by
  -- The line is a piece of the text, so its characters are among those of the text.
  have hvalid : ∀ c ∈ line, c.isValidChar := by
    intro c hc
    apply h
    rw [← (Text.cutInto_splitOn 0x0A t).joined]
    exact Text.mem_of_mem_joinWith (List.mem_of_getElem? hline) hc
  have hbytes : (splitLines (Utf8.encode t)).getD row [] = Utf8.encode line := by
    rw [splitLines_encode h, List.getD_eq_getElem?_getD, List.getElem?_map, hline]
    rfl
  rw [position, ofBytes, hbytes, Utf8.length_decodeLossy_take_encode hvalid, Nat.add_comm 1]

/-- A place below the last line of a text has the first column. -/
theorem position_of_le {t : Text} (h : ∀ c ∈ t, c.isValidChar) {row : Nat}
    (hrow : (Text.splitOn 0x0A t).length ≤ row) (column : Nat) :
    (ofBytes (Utf8.encode t)).position row column = ⟨row + 1, 1⟩ := by
  have hbytes : (splitLines (Utf8.encode t)).getD row [] = [] := by
    rw [splitLines_encode h, List.getD_eq_getElem?_getD, List.getElem?_map,
      List.getElem?_eq_none hrow]
    rfl
  rw [position, ofBytes, hbytes, List.take_nil]
  rfl

end Source

/-! ## Places between two characters -/

def Text.lastLine (t : Text) : Text := t.rtakeWhile (· != 0x0A)

theorem Text.lastLine_concat_newline (t : Text) : lastLine (t ++ [0x0A]) = [] :=
  List.rtakeWhile_concat_neg _ _ _ (by decide)

theorem Text.lastLine_concat {c : Nat} (hc : c ≠ 0x0A) (t : Text) :
    lastLine (t ++ [c]) = lastLine t ++ [c] :=
  List.rtakeWhile_concat_pos _ _ _ (by simp [hc])

/-- The line on which a text ends goes on with the first line of the text after it. -/
theorem Text.getElem?_splitOn_count (s t : Text) :
    (splitOn 0x0A (s ++ t))[s.count 0x0A]? = some (lastLine s ++ (splitOn 0x0A t).headD []) := by
  obtain ⟨line, lines, hlines⟩ := List.exists_cons_of_ne_nil (splitOn_ne_nil 0x0A t)
  -- From the end of `s` backwards: what is taken off it goes to the front of `t`.
  induction s using List.reverseRecOn generalizing t line lines with
  | nil =>
    rw [List.nil_append, hlines]
    rfl
  | append_singleton s c ih =>
    rw [List.append_assoc, List.singleton_append, List.count_append]
    by_cases hc : c = 0x0A
    · subst hc
      rw [splitOn_append_cons, List.count_singleton_self, ← length_splitOn,
        List.getElem?_append_right (Nat.le_refl _), Nat.sub_self, hlines, lastLine_concat_newline]
      rfl
    · have hcons := splitOn_cons_of_ne hc hlines
      rw [List.count_singleton, if_neg (by simpa using hc), Nat.add_zero,
        ih (c :: t) _ _ hcons, hcons, hlines, lastLine_concat hc, List.append_assoc]
      rfl

namespace Source

/-- A place between two characters is on the line after the newlines before it, and after the characters
since the last of these. -/
theorem position_between (s t : Text) (h : ∀ c ∈ s ++ t, c.isValidChar) :
    (ofBytes (Utf8.encode (s ++ t))).position (s.count 0x0A)
        (Utf8.encode (Text.lastLine s)).length =
      ⟨1 + s.count 0x0A, 1 + (Text.lastLine s).length⟩ := by
  rw [position_of_line h (Text.getElem?_splitOn_count s t), Utf8.startsBefore_append,
    Nat.add_comm 1 (s.count 0x0A)]

end Source

/-- Where the grammar is after a text: it counts bytes, and newlines. -/
theorem Grammar.Place.afterText_eq (s : Text) :
    Place.afterText {} s =
      ⟨(Utf8.encode s).length, s.count 0x0A, (Utf8.encode (Text.lastLine s)).length⟩ := by
  induction s using List.reverseRecOn with
  | nil => rfl
  | append_singleton s c ih =>
    have hsize : (Utf8.encode [c]).length = (Utf8.encodePoint c).length := by
      rw [Utf8.encode_cons, Utf8.encode_nil, List.append_nil]
    rw [afterText_append, ih, afterText_cons, afterText_nil, after, byteSize_eq, Utf8.encode_append,
      List.length_append, hsize, List.count_append]
    by_cases hc : c = 0x0A
    · subst hc
      rw [if_pos rfl, Text.lastLine_concat_newline]
      rfl
    · rw [if_neg hc, Text.lastLine_concat hc, Utf8.encode_append, List.length_append, hsize,
        List.count_singleton, if_neg (by simpa using hc), Nat.add_zero]

namespace Source

/-- The column of a place in a text is one more than the number of characters on its line that start before
it, wherever on the line the place is; below the last line it is one. A place that the grammar comes to
between two characters is on the line after the newlines before it, and in the column after the characters
since the last newline. -/
theorem position_counts_characters {t : Text} (h : ∀ c ∈ t, c.isValidChar) :
    (∃ lines, Text.CutInto 0x0A t lines ∧ lines.length = t.count 0x0A + 1 ∧
      (∀ row line column, lines[row]? = some line →
        (ofBytes (Utf8.encode t)).position row column =
          ⟨row + 1, 1 + Utf8.startsBefore line column⟩) ∧
      ∀ row column, lines.length ≤ row →
        (ofBytes (Utf8.encode t)).position row column = ⟨row + 1, 1⟩) ∧
    ∀ i, let place := Grammar.Place.afterText {} (t.take i)
      (ofBytes (Utf8.encode t)).position place.row place.column =
        ⟨1 + (t.take i).count 0x0A, 1 + (Text.lastLine (t.take i)).length⟩ := by
  refine ⟨⟨Text.splitOn 0x0A t, Text.cutInto_splitOn 0x0A t, Text.length_splitOn 0x0A t, ?_, ?_⟩, ?_⟩
  · exact fun row line column hline => position_of_line h hline column
  · exact fun row column hrow => position_of_le h hrow column
  · intro i
    have hbetween := position_between (t.take i) (t.drop i) (by rwa [List.take_append_drop])
    rw [List.take_append_drop] at hbetween
    dsimp only
    rw [Grammar.Place.afterText_eq]
    exact hbetween

/-- A text of two lines; the characters of the second one have three, two, four bytes and one byte. -/
def wideText : Text := "a\n€é😀b"

/-- A place within the third character of a line is in the column after it, a place past the end of the line
is in the one after all of them, and a place below the text is in the first. -/
theorem position_counts_characters_wide :
    (∀ c ∈ wideText, c.isValidChar) ∧
      (ofBytes (Utf8.encode wideText)).position 1 7 = ⟨2, 4⟩ ∧
      (ofBytes (Utf8.encode wideText)).position 1 100 = ⟨2, 5⟩ ∧
      (ofBytes (Utf8.encode wideText)).position 2 100 = ⟨3, 1⟩ ∧
      Grammar.Place.afterText {} (wideText.take 4) = ⟨7, 1, 5⟩ ∧
      (ofBytes (Utf8.encode wideText)).position 1 5 = ⟨2, 3⟩ := by
  have h : ∀ c ∈ wideText, c.isValidChar := by decide
  obtain ⟨⟨lines, hcut, -, hwithin, hbelow⟩, hbetween⟩ := position_counts_characters h
  have hlines : lines = [Text.ofString "a", Text.ofString "€é😀b"] := by
    rw [← Text.cutInto_iff.1 hcut]
    decide
  subst hlines
  refine ⟨h, (hwithin 1 _ 7 rfl).trans ?_, (hwithin 1 _ 100 rfl).trans ?_, hbelow 2 100 (by decide),
    by decide, (hbetween 4).trans ?_⟩ <;> decide

end Source

end ElementLint
