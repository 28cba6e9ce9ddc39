/-
What lies in a source text: the cursors on it, and the spans of it.

A span is sound if it lies between two boundaries of characters and has the line and the column of the
first of them (`Source.Sound`).  So is the span of some characters (`Covers.sound`), and the span that
covers two sound ones (`Sound.merge`).  A boundary has the line and the column that the table of lines
gives for it (`position_in_lines`).
-/
import Workbook.Proofs.Token.Layout

namespace Workbook

namespace Span

@[simp] theorem merge_start (a b : Span) : (a.merge b).start = min a.start b.start := by
  unfold merge
  dsimp only
  split
  · exact (Nat.min_eq_left (by assumption)).symm
  · exact (Nat.min_eq_right (by omega)).symm

@[simp] theorem merge_stop (a b : Span) : (a.merge b).stop = max a.stop b.stop := rfl

end Span

namespace Source

variable {s : Source} {c : Cursor} {a b : Span}

/-! ## Cursors on a text -/

/-- The cursor stands in the text, so many characters after its beginning. -/
def Reaches (s : Source) (c : Cursor) : Prop :=
  ∃ m, c = (Cursor.start s.text).drop m

/-- The span is that of characters of the text, at one place of it. -/
def Covers (s : Source) (span : Span) (cs : List Char) : Prop :=
  ∃ before after, s.text.toList = before ++ cs ++ after ∧
    span = .between (Position.start.after before) (Position.start.after (before ++ cs))

theorem reaches_start : s.Reaches (Cursor.start s.text) :=
  ⟨0, (Cursor.drop_zero _).symm⟩

theorem Reaches.drop (h : s.Reaches c) (n : Nat) : s.Reaches (c.drop n) := by
  obtain ⟨m, rfl⟩ := h
  exact ⟨m + n, Cursor.drop_drop _ m n⟩

/-- Tokens on a text from a cursor on lead to a cursor on it. -/
theorem Reaches.laid {gap : List Char → List Char → Prop} {d : Cursor} {ts : List Token}
    (h : s.Reaches c) (hlaid : Token.Lexer.Laid gap c ts d) : s.Reaches d := by
  induction hlaid with
  | nil => exact h
  | skip n _ _ ih => exact ih (h.drop n)
  | token n _ _ _ ih => exact ih (h.drop n)

/-- The next characters lie in the text. -/
theorem Reaches.covers (h : s.Reaches c) (n : Nat) : s.Covers (c.span n) (c.rest.take n) := by
  obtain ⟨m, rfl⟩ := h
  have htake : s.text.toList.take m ++ (s.text.toList.drop m).take n = s.text.toList.take (m + n) :=
    List.take_add.symm
  refine ⟨s.text.toList.take m, (s.text.toList.drop m).drop n, ?_, ?_⟩
  · show s.text.toList = _ ++ (s.text.toList.drop m).take n ++ _
    rw [List.append_assoc, List.take_append_drop, List.take_append_drop]
  · unfold Cursor.span
    rw [Cursor.drop_drop]
    show Span.between _ (Position.start.after (s.text.toList.take (m + n))) = _
    rw [← htake]
    rfl

/-! ## Sound spans -/

/-- The span lies between two boundaries of characters of the text, in order, and has the line and
the column of the first one. -/
structure Sound (s : Source) (span : Span) : Prop where
  le : span.start ≤ span.stop
  stop_le : span.stop ≤ s.text.utf8ByteSize
  start_valid : String.Pos.Raw.IsValid s.text ⟨span.start⟩
  stop_valid : String.Pos.Raw.IsValid s.text ⟨span.stop⟩
  place : s.position span.start = ⟨span.start, span.line, span.column⟩

/-- The characters that begin before the end of some of them are these. -/
theorem before_append (place : Nat) (cs ds : List Char) :
    before (place + (String.ofList cs).utf8ByteSize) place (cs ++ ds) = cs := by
  induction cs generalizing place with
  | nil =>
    cases ds with
    | nil => rfl
    | cons d ds =>
      show (if place < place + 0 then _ else _) = []
      rw [if_neg (by omega)]
  | cons c cs ih =>
    have hc : 0 < c.utf8Size := c.utf8Size_pos
    rw [byteSize_cons, List.cons_append, before, if_pos (by omega), ← Nat.add_assoc, ih]

/-- The place of a boundary is the place after the characters up to there. -/
theorem position_after {cs ds : List Char} (h : s.text.toList = cs ++ ds) :
    s.position (Position.start.after cs).offset = Position.start.after cs := by
  have hoffset : (Position.start.after cs).offset = (String.ofList cs).utf8ByteSize := by
    rw [Position.offset_after]
    exact Nat.zero_add _
  have hsize : s.text.utf8ByteSize =
      (String.ofList cs).utf8ByteSize + (String.ofList ds).utf8ByteSize := by
    rw [← byteSize_append, ← h, String.ofList_toList]
  have hbefore := before_append 0 cs ds
  rw [Nat.zero_add] at hbefore
  unfold position
  dsimp only
  rw [hoffset, Nat.min_eq_left (by omega), h, hbefore, ← hoffset]

theorem isValid_after {cs ds : List Char} (h : s.text.toList = cs ++ ds) :
    String.Pos.Raw.IsValid s.text ⟨(Position.start.after cs).offset⟩ := by
  refine String.Pos.Raw.isValid_iff_exists_append.2 ⟨String.ofList cs, String.ofList ds, ?_, ?_⟩
  · rw [← String.ofList_append, ← h, String.ofList_toList]
  · rw [Position.offset_after]
    exact congrArg _ (Nat.zero_add _)

theorem Covers.sound {cs : List Char} (h : s.Covers a cs) : s.Sound a := by
  obtain ⟨before, after, htext, rfl⟩ := h
  have hrest : s.text.toList = before ++ (cs ++ after) := by rw [htext, List.append_assoc]
  have hvalid := isValid_after htext
  exact {
    le := by
      show (Position.start.after before).offset ≤ (Position.start.after (before ++ cs)).offset
      rw [Position.after_append, Position.offset_after _ cs]
      omega
    stop_le := hvalid.le_rawEndPos
    start_valid := isValid_after hrest
    stop_valid := hvalid
    place := position_after hrest }

theorem Reaches.sound (h : s.Reaches c) (n : Nat) : s.Sound (c.span n) :=
  (h.covers n).sound

theorem Reaches.sound_point (h : s.Reaches c) : s.Sound (.point c.place) := by
  have hsound := h.sound 0
  unfold Cursor.span at hsound
  rwa [Cursor.drop_zero] at hsound

/-- The span that covers two sound ones. -/
theorem Sound.merge (ha : s.Sound a) (hb : s.Sound b) : s.Sound (a.merge b) := by
  have hstop : (a.merge b).stop = a.stop ∨ (a.merge b).stop = b.stop := by
    rw [Span.merge_stop]
    omega
  have hale := ha.le
  have hastop := ha.stop_le
  have hbstop := hb.stop_le
  refine ⟨?_, ?_, ?_, ?_, ?_⟩
  · rw [Span.merge_start, Span.merge_stop]
    omega
  · rw [Span.merge_stop]
    omega
  · unfold Span.merge
    dsimp only
    split
    · exact ha.start_valid
    · exact hb.start_valid
  · rcases hstop with hstop | hstop
    · rw [hstop]
      exact ha.stop_valid
    · rw [hstop]
      exact hb.stop_valid
  · unfold Span.merge
    dsimp only
    split
    · exact ha.place
    · exact hb.place

/-! ## The table of lines -/

/-- How many bytes lines take, each with the line feed after it. -/
def linesSize : List (List Char) → Nat
  | [] => 0
  | line :: lines => (String.ofList line).utf8ByteSize + 1 + linesSize lines

/-- The byte at which the line with the given number, counted from one, begins. -/
def lineStart (s : Source) (number : Nat) : Nat :=
  linesSize (s.lines.take (number - 1))

/-- Every text has a first line. -/
theorem splitLines_eq_cons (cs : List Char) : ∃ line lines, splitLines cs = line :: lines := by
  cases cs with
  | nil => exact ⟨_, _, rfl⟩
  | cons c cs =>
    unfold splitLines
    split
    · exact ⟨_, _, rfl⟩
    · split <;> exact ⟨_, _, rfl⟩

theorem splitLines_cons {c : Char} {cs line : List Char} {lines : List (List Char)} (hc : c ≠ '\n')
    (h : splitLines cs = line :: lines) : splitLines (c :: cs) = (c :: line) :: lines := by
  rw [splitLines, if_neg hc, h]

/-- Lines that end, and the beginning of the line that a place is in.  Of the first line only what
comes after `p` is seen. -/
theorem splitLines_append (p : Position) (cs ds : List Char) : ∃ lines before after rest,
    splitLines (cs ++ ds) = lines ++ (before ++ after) :: rest ∧
      (p.after cs).line = p.line + lines.length ∧
      (p.after cs).column = (if lines = [] then p.column else 1) + before.length ∧
      (String.ofList cs).utf8ByteSize = linesSize lines + (String.ofList before).utf8ByteSize := by
  induction cs generalizing p with
  | nil =>
    obtain ⟨line, rest, hlines⟩ := splitLines_eq_cons ds
    exact ⟨[], [], line, rest, hlines, rfl, rfl, rfl⟩
  | cons c cs ih =>
    obtain ⟨lines, before, after, rest, hlines, hline, hcolumn, hsize⟩ := ih (p.next c)
    by_cases hc : c = '\n'
    · subst hc
      refine ⟨[] :: lines, before, after, rest, ?_, ?_, ?_, ?_⟩
      · rw [List.cons_append, splitLines, if_pos rfl, hlines]
        rfl
      · rw [Position.after_cons, hline, List.length_cons]
        show p.line + 1 + lines.length = _
        omega
      · rw [Position.after_cons, hcolumn, if_neg (List.cons_ne_nil _ _)]
        show (if lines = [] then 1 else 1) + before.length = _
        rw [ite_self]
      · rw [byteSize_cons, hsize]
        show 1 + _ = 0 + 1 + linesSize lines + _
        omega
    · have hnext : p.next c = ⟨p.offset + c.utf8Size, p.line, p.column + 1⟩ := by
        rw [Position.next, if_neg hc]
      rw [hnext] at hline hcolumn
      cases lines with
      | nil =>
        refine ⟨[], c :: before, after, rest, splitLines_cons hc hlines, ?_, ?_, ?_⟩
        · rw [Position.after_cons, hnext, hline]
        · rw [Position.after_cons, hnext, hcolumn, if_pos rfl, if_pos rfl, List.length_cons]
          show p.column + 1 + before.length = _
          omega
        · rw [byteSize_cons, hsize, byteSize_cons]
          show _ + (0 + _) = 0 + _
          omega
      | cons line lines =>
        refine ⟨(c :: line) :: lines, before, after, rest, splitLines_cons hc hlines, ?_, ?_, ?_⟩
        · rw [Position.after_cons, hnext, hline]
          rfl
        · rw [Position.after_cons, hnext, hcolumn, if_neg (List.cons_ne_nil _ _),
            if_neg (List.cons_ne_nil _ _)]
        · rw [byteSize_cons, hsize]
          unfold linesSize
          rw [byteSize_cons]
          omega

/-- The line and the column of a boundary are those that the table of lines gives: the line begins so
many bytes into the text, and the characters of the line before the column take the others. -/
theorem position_in_lines {offset : Nat} (h : String.Pos.Raw.IsValid s.text ⟨offset⟩) :
    ∃ before after, s.lines[(s.position offset).line - 1]? = some (before ++ after) ∧
      (s.position offset).line ≠ 0 ∧ (s.position offset).column = before.length + 1 ∧
      s.lineStart (s.position offset).line + (String.ofList before).utf8ByteSize = offset := by
  obtain ⟨first, second, htext, hoffset⟩ := String.Pos.Raw.isValid_iff_exists_append.1 h
  have hchars : s.text.toList = first.toList ++ second.toList := by
    rw [htext, String.toList_append]
  have hplace : (Position.start.after first.toList).offset = offset := by
    have hsize : offset = first.utf8ByteSize := congrArg String.Pos.Raw.byteIdx hoffset
    rw [Position.offset_after, String.ofList_toList, hsize]
    exact Nat.zero_add _
  have hposition := position_after hchars
  rw [hplace] at hposition
  obtain ⟨lines, before, after, rest, hlines, hline, hcolumn, hsize⟩ :=
    splitLines_append .start first.toList second.toList
  have hline : (Position.start.after first.toList).line = lines.length + 1 :=
    hline.trans (Nat.add_comm _ _)
  have hall : s.lines = lines ++ (before ++ after) :: rest := by
    unfold Source.lines
    rw [hchars, hlines]
  have hoffset : offset = linesSize lines + (String.ofList before).utf8ByteSize := by
    rw [← hsize, ← hplace, Position.offset_after]
    exact Nat.zero_add _
  rw [hposition, hline]
  refine ⟨before, after, ?_, Nat.succ_ne_zero _, ?_, ?_⟩
  · rw [hall, Nat.add_sub_cancel, List.getElem?_append_right (Nat.le_refl _), Nat.sub_self]
    rfl
  · rw [hcolumn]
    show (if lines = [] then 1 else 1) + before.length = _
    rw [ite_self, Nat.add_comm]
  · unfold lineStart
    rw [hall, Nat.add_sub_cancel, List.take_left, hoffset]

/-- A sound span is on a line of the text. -/
theorem Sound.line?_eq (h : s.Sound a) : s.line? a.line = some (s.line a.line) := by
  obtain ⟨before, after, hline, hne, -⟩ := position_in_lines h.start_valid
  rw [h.place] at hline hne
  unfold line line?
  rw [if_neg hne, hline]
  rfl

end Source
end Workbook
