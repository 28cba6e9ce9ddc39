/-
The places of byte offsets, and the excerpts that show spans.

Every offset is on the line that the table of lines has for it, and its column is one more than the
number of characters of the line that begin before it (`columns_count_begun`).  An excerpt is made
without a subtraction below zero and without a slice that is not of the text, and it shows what the
span begins with above the first mark (`excerpts_are_aligned`).
-/
import Mathlib.Data.List.DropRight
import Workbook.Source.Excerpt
import Workbook.Proofs.Source

namespace Workbook

/-- The place after some characters is on a later line, or on the same one and no less far. -/
theorem Position.advances (p : Position) (cs : List Char) :
    p.line < (p.after cs).line ∨ p.line = (p.after cs).line ∧ p.column ≤ (p.after cs).column := by
  induction cs generalizing p with
  | nil => exact .inr ⟨rfl, Nat.le_refl _⟩
  | cons c cs ih =>
    rw [after_cons]
    have hstep := ih (p.next c)
    by_cases hc : c = '\n'
    · have hline : (p.next c).line = p.line + 1 := by rw [next, if_pos hc]
      omega
    · have hline : (p.next c).line = p.line := by rw [next, if_neg hc]
      have hcolumn : (p.next c).column = p.column + 1 := by rw [next, if_neg hc]
      omega

namespace Source

variable {s : Source}

/-! ## Lines in their text -/

/-- A text is made of its lines, with a line feed between each and the next one. -/
theorem eq_of_splitLines {cs line : List Char} {lines rest : List (List Char)}
    (h : splitLines cs = lines ++ line :: rest) :
    cs = lines.flatMap (· ++ ['\n']) ++ line ++ rest.flatMap ('\n' :: ·) := by
  induction cs generalizing lines line rest with
  | nil =>
    obtain ⟨rfl, hone⟩ | ⟨-, hnone⟩ := List.append_eq_singleton_iff.1 h.symm
    · obtain ⟨rfl, rfl⟩ := List.cons.inj hone
      rfl
    · exact absurd hnone (List.cons_ne_nil _ _)
  | cons c cs ih =>
    by_cases hc : c = '\n'
    · subst hc
      rw [splitLines, if_pos rfl] at h
      cases lines with
      | nil =>
        obtain ⟨rfl, rfl⟩ := List.cons.inj h
        obtain ⟨first, others, hlines⟩ := splitLines_eq_cons cs
        have hcs : cs = first ++ others.flatMap _ := ih (show _ = [] ++ _ from hlines)
        rw [hlines]
        show _ = '\n' :: first ++ others.flatMap _
        rw [List.cons_append]
        exact congrArg _ hcs
      | cons first lines =>
        obtain ⟨rfl, hrest⟩ := List.cons.inj h
        exact congrArg (List.cons '\n') (ih hrest)
    · obtain ⟨first, others, hlines⟩ := splitLines_eq_cons cs
      rw [splitLines_cons hc hlines] at h
      cases lines with
      | nil =>
        obtain ⟨rfl, rfl⟩ := List.cons.inj h
        exact congrArg (List.cons c) (ih (show _ = [] ++ _ from hlines))
      | cons second lines =>
        obtain ⟨rfl, rfl⟩ := List.cons.inj h
        exact congrArg (List.cons c) (ih (show _ = (first :: lines) ++ _ from hlines))

theorem byteSize_lines (lines : List (List Char)) :
    (String.ofList (lines.flatMap (· ++ ['\n']))).utf8ByteSize = linesSize lines := by
  induction lines with
  | nil => rfl
  | cons line lines ih =>
    rw [List.flatMap_cons, byteSize_append, byteSize_append, ih]
    rfl

/-- Where a line of the text stands in it. -/
theorem text_of_line {number : Nat} {line : List Char} (h : s.lines[number - 1]? = some line) :
    ∃ before after, s.text.toList = before ++ line ++ after ∧
      (String.ofList before).utf8ByteSize = s.lineStart number ∧
      (s.lines.length ≤ number → after = []) := by
  have hsplit : s.lines = s.lines.take (number - 1) ++ line :: s.lines.drop (number - 1 + 1) := by
    obtain ⟨hlt, rfl⟩ := List.getElem?_eq_some_iff.1 h
    rw [List.getElem_cons_drop, List.take_append_drop]
  refine ⟨_, _, eq_of_splitLines hsplit, byteSize_lines _, fun hle => ?_⟩
  rw [List.drop_eq_nil_of_le (by omega)]
  rfl

/-! ## Offsets -/

/-- The stretches of bytes that characters take from `place` on. -/
def stretches (place : Nat) : List Char → List (Nat × Nat)
  | [] => []
  | c :: cs => (place, place + c.utf8Size) :: stretches (place + c.utf8Size) cs

/-- How many of the characters from `place` on begin before an offset. -/
def begun (offset place : Nat) (cs : List Char) : Nat :=
  (stretches place cs).countP fun stretch => stretch.1 < offset

/-- How many of the characters from `place` on end at an offset or before it. -/
def ended (offset place : Nat) (cs : List Char) : Nat :=
  (stretches place cs).countP fun stretch => stretch.2 ≤ offset

theorem begun_cons (offset place : Nat) (c : Char) (cs : List Char) :
    begun offset place (c :: cs) =
      (if place < offset then 1 else 0) + begun offset (place + c.utf8Size) cs := by
  simp only [begun, stretches, List.countP_cons, decide_eq_true_eq]
  exact Nat.add_comm _ _

theorem ended_cons (offset place : Nat) (c : Char) (cs : List Char) :
    ended offset place (c :: cs) =
      (if place + c.utf8Size ≤ offset then 1 else 0) + ended offset (place + c.utf8Size) cs := by
  simp only [ended, stretches, List.countP_cons, decide_eq_true_eq]
  exact Nat.add_comm _ _

/-- No character begins before the place of the first one. -/
theorem begun_eq_zero {offset place : Nat} (cs : List Char) (h : offset ≤ place) :
    begun offset place cs = 0 := by
  induction cs generalizing place with
  | nil => rfl
  | cons c cs ih => rw [begun_cons, if_neg (by omega), ih (by omega)]

theorem ended_eq_zero {offset place : Nat} (cs : List Char) (h : offset ≤ place) :
    ended offset place cs = 0 := by
  induction cs generalizing place with
  | nil => rfl
  | cons c cs ih =>
    have hc := c.utf8Size_pos
    rw [ended_cons, if_neg (by omega), ih (by omega)]

/-- At a boundary the characters that have begun have ended. -/
theorem ended_of_boundary (place : Nat) (cs ds : List Char) :
    begun (place + (String.ofList cs).utf8ByteSize) place (cs ++ ds) = cs.length ∧
      ended (place + (String.ofList cs).utf8ByteSize) place (cs ++ ds) = cs.length := by
  induction cs generalizing place with
  | nil => exact ⟨begun_eq_zero ds (Nat.le_refl _), ended_eq_zero ds (Nat.le_refl _)⟩
  | cons c cs ih =>
    have hc := c.utf8Size_pos
    obtain ⟨hbegun, hended⟩ := ih (place + c.utf8Size)
    rw [byteSize_cons, List.cons_append, begun_cons, ended_cons, if_pos (by omega),
      if_pos (by omega), ← Nat.add_assoc, hbegun, hended, List.length_cons]
    omega

/-- An offset in some characters is a boundary of them, or one of them has begun and not ended. -/
theorem boundary_or_inside {offset place : Nat} (cs : List Char) (hle : place ≤ offset)
    (hstop : offset ≤ place + (String.ofList cs).utf8ByteSize) :
    (∃ before after, cs = before ++ after ∧
      place + (String.ofList before).utf8ByteSize = offset) ∨
      begun offset place cs = ended offset place cs + 1 := by
  induction cs generalizing place with
  | nil =>
    refine .inl ⟨[], [], rfl, ?_⟩
    have hnil : (String.ofList []).utf8ByteSize = 0 := rfl
    omega
  | cons c cs ih =>
    rw [byteSize_cons] at hstop
    by_cases hstart : offset = place
    · exact .inl ⟨[], c :: cs, rfl, hstart.symm⟩
    by_cases hinside : offset < place + c.utf8Size
    · right
      rw [begun_cons, ended_cons, if_pos (by omega), if_neg (by omega),
        begun_eq_zero cs (by omega), ended_eq_zero cs (by omega)]
    · have hnext : place + c.utf8Size ≤ offset := by omega
      obtain ⟨before, after, rfl, hsize⟩ | hcount := ih hnext (by omega)
      · refine .inl ⟨c :: before, after, rfl, ?_⟩
        rw [byteSize_cons]
        omega
      · right
        rw [begun_cons, ended_cons, if_pos (by omega), if_pos (by omega), hcount]
        omega

/-- The place after the characters that begin before an offset is on the line that the offset is in.
Of the first line only what comes after `p` is seen. -/
theorem splitLines_before {offset place : Nat} (p : Position) (cs : List Char)
    (h : offset ≤ place + (String.ofList cs).utf8ByteSize) : ∃ lines line rest,
    splitLines cs = lines ++ line :: rest ∧
      (p.after (before offset place cs)).line = p.line + lines.length ∧
      (p.after (before offset place cs)).column =
        (if lines = [] then p.column else 1) + begun offset (place + linesSize lines) line ∧
      (lines ≠ [] → place + linesSize lines ≤ offset) ∧
      offset ≤ place + linesSize lines + (String.ofList line).utf8ByteSize := by
  induction cs generalizing place p with
  | nil => exact ⟨[], [], [], rfl, rfl, rfl, fun hne => absurd rfl hne, h⟩
  | cons c cs ih =>
    by_cases hplace : place < offset
    · rw [byteSize_cons, ← Nat.add_assoc] at h
      obtain ⟨lines, line, rest, hlines, hline, hcolumn, hstart, hstop⟩ := ih (p.next c) h
      rw [before, if_pos hplace, Position.after_cons, hline, hcolumn]
      by_cases hc : c = '\n'
      · subst hc
        have hsize : linesSize ([] :: lines) = 1 + linesSize lines := rfl
        refine ⟨[] :: lines, line, rest, ?_, ?_, ?_, fun _ => ?_, ?_⟩
        · rw [splitLines, if_pos rfl, hlines]
          rfl
        · rw [List.length_cons]
          show p.line + 1 + lines.length = _
          omega
        · rw [if_neg (List.cons_ne_nil _ _), hsize, ← Nat.add_assoc]
          show (if lines = [] then 1 else 1) + _ = _
          rw [ite_self]
          rfl
        · rw [hsize]
          cases lines with
          | nil => exact hplace
          | cons first lines =>
            have := hstart (List.cons_ne_nil _ _)
            have hsize : ('\n').utf8Size = 1 := rfl
            omega
        · rw [hsize]
          have hsize : ('\n').utf8Size = 1 := rfl
          omega
      · have hnext : p.next c = ⟨p.offset + c.utf8Size, p.line, p.column + 1⟩ := by
          rw [Position.next, if_neg hc]
        rw [hnext]
        cases lines with
        | nil =>
          refine ⟨[], c :: line, rest, splitLines_cons hc hlines, rfl, ?_,
            fun hne => absurd rfl hne, ?_⟩
          · rw [if_pos rfl, if_pos rfl, begun_cons]
            show p.column + 1 + begun offset (place + c.utf8Size) line =
              p.column + ((if place < offset then 1 else 0) + begun offset (place + c.utf8Size) line)
            rw [if_pos hplace, Nat.add_assoc]
          · rw [byteSize_cons]
            show _ ≤ place + 0 + _
            have hnil : linesSize [] = 0 := rfl
            omega
        | cons first lines =>
          have hsize : linesSize ((c :: first) :: lines) = c.utf8Size + linesSize (first :: lines) := by
            unfold linesSize
            rw [byteSize_cons]
            omega
          refine ⟨(c :: first) :: lines, line, rest, splitLines_cons hc hlines, rfl, ?_,
            fun _ => ?_, ?_⟩
          · rw [if_neg (List.cons_ne_nil _ _), if_neg (List.cons_ne_nil _ _), hsize, Nat.add_assoc]
          · have := hstart (List.cons_ne_nil _ _)
            omega
          · omega
    · obtain ⟨line, rest, hlines⟩ := splitLines_eq_cons (c :: cs)
      rw [before, if_neg hplace]
      refine ⟨[], line, rest, hlines, rfl, ?_, fun hne => absurd rfl hne, ?_⟩
      · rw [begun_eq_zero line (Nat.le_trans (Nat.le_of_not_lt hplace) (Nat.le_add_right _ _))]
        rfl
      · omega

/-- The characters that begin before an offset begin before a later one. -/
theorem before_prefix {offset later place : Nat} (cs : List Char) (h : offset ≤ later) :
    before offset place cs <+: before later place cs := by
  induction cs generalizing place with
  | nil => exact List.prefix_rfl
  | cons c cs ih =>
    rw [before, before]
    by_cases hplace : place < offset
    · rw [if_pos hplace, if_pos (by omega)]
      exact (List.prefix_cons_inj c).2 ih
    · rw [if_neg hplace]
      exact List.nil_prefix

/-- A later offset has a place on a later line, or on the same one and no less far. -/
theorem position_mono {offset later : Nat} (h : offset ≤ later) :
    (s.position offset).line < (s.position later).line ∨
      (s.position offset).line = (s.position later).line ∧
        (s.position offset).column ≤ (s.position later).column := by
  have hmin : min offset s.text.utf8ByteSize ≤ min later s.text.utf8ByteSize := by omega
  obtain ⟨cs, hcs⟩ : before (min offset s.text.utf8ByteSize) 0 s.text.toList <+:
      before (min later s.text.utf8ByteSize) 0 s.text.toList := before_prefix _ hmin
  have hadvances := Position.advances (Position.start.after
    (before (min offset s.text.utf8ByteSize) 0 s.text.toList)) cs
  rw [← Position.after_append, hcs] at hadvances
  exact hadvances

/-- The line of an offset, and the column by the characters of the line that have begun. -/
theorem position_begun (s : Source) (offset : Nat) :
    ∃ line, s.lines[(s.position offset).line - 1]? = some line ∧ (s.position offset).line ≠ 0 ∧
      s.lineStart (s.position offset).line ≤ (s.position offset).offset ∧
      (s.position offset).offset ≤
        s.lineStart (s.position offset).line + (String.ofList line).utf8ByteSize ∧
      (s.position offset).column =
        begun (s.position offset).offset (s.lineStart (s.position offset).line) line + 1 := by
  have hsize : (String.ofList s.text.toList).utf8ByteSize = s.text.utf8ByteSize := by
    rw [String.ofList_toList]
  have hmin : min offset s.text.utf8ByteSize ≤ 0 + (String.ofList s.text.toList).utf8ByteSize := by
    omega
  obtain ⟨lines, line, rest, hlines, hline, hcolumn, hstart, hstop⟩ :=
    splitLines_before .start s.text.toList hmin
  have hall : s.lines = lines ++ line :: rest := hlines
  have hnumber : (s.position offset).line = lines.length + 1 := hline.trans (Nat.add_comm _ _)
  have hbegins : s.lineStart (lines.length + 1) = linesSize lines := by
    unfold lineStart
    rw [hall, Nat.add_sub_cancel, List.take_left]
  rw [Nat.zero_add] at hcolumn hstop hstart
  rw [hnumber, hbegins, Nat.add_sub_cancel]
  refine ⟨line, ?_, Nat.succ_ne_zero _, ?_, hstop, ?_⟩
  · rw [hall, List.getElem?_append_right (Nat.le_refl _), Nat.sub_self]
    rfl
  · by_cases hnil : lines = []
    · subst hnil
      exact Nat.zero_le _
    · exact hstart hnil
  · refine hcolumn.trans ?_
    show (if lines = [] then 1 else 1) + _ = _
    rw [ite_self, Nat.add_comm]
    rfl

/-- An offset that is no boundary of the text is no boundary of its line. -/
theorem begun_inside {number offset : Nat} {line : List Char} (hline : s.lines[number - 1]? = some line)
    (hstart : s.lineStart number ≤ offset)
    (hstop : offset ≤ s.lineStart number + (String.ofList line).utf8ByteSize)
    (h : ¬ String.Pos.Raw.IsValid s.text ⟨offset⟩) :
    begun offset (s.lineStart number) line = ended offset (s.lineStart number) line + 1 := by
  obtain ⟨before, after, rfl, hoffset⟩ | hinside := boundary_or_inside line hstart hstop
  · obtain ⟨first, last, htext, hfirst, -⟩ := text_of_line hline
    have hchars : s.text.toList = (first ++ before) ++ (after ++ last) := by
      rw [htext]
      simp only [List.append_assoc]
    have hplace : (Position.start.after (first ++ before)).offset = offset := by
      rw [Position.offset_after, byteSize_append, hfirst, hoffset]
      exact Nat.zero_add _
    exact absurd (hplace ▸ isValid_after hchars) h
  · exact hinside

/-- The place of a byte offset, or of the end of the text for one past it: the line that the offset
is in, and a column that counts the characters of this line which begin before it.  They are the ones
that have ended if the offset is a boundary, and one more if it is inside of a character.  A later
offset has a place on a later line, or on the same one and no less far. -/
theorem columns_count_begun (s : Source) (offset : Nat) :
    let place := s.position offset
    let start := s.lineStart place.line
    place.offset = min offset s.text.utf8ByteSize ∧
    (∃ line, s.lines[place.line - 1]? = some line ∧ place.line ≠ 0 ∧ start ≤ place.offset ∧
      place.offset ≤ start + (String.ofList line).utf8ByteSize ∧
      place.column = begun place.offset start line + 1 ∧
      (String.Pos.Raw.IsValid s.text ⟨place.offset⟩ →
        place.column = ended place.offset start line + 1) ∧
      (¬ String.Pos.Raw.IsValid s.text ⟨place.offset⟩ →
        place.column = ended place.offset start line + 2)) ∧
    ∀ later, offset ≤ later → place.line < (s.position later).line ∨
      place.line = (s.position later).line ∧ place.column ≤ (s.position later).column := by
  obtain ⟨line, hline, hne, hstart, hstop, hcolumn⟩ := position_begun s offset
  refine ⟨rfl, ⟨line, hline, hne, hstart, hstop, hcolumn, fun hvalid => ?_, fun hinside => ?_⟩,
    fun later hlater => position_mono hlater⟩
  · have hsame : s.position (s.position offset).offset = s.position offset := by
      have hmin : min (min offset s.text.utf8ByteSize) s.text.utf8ByteSize =
          min offset s.text.utf8ByteSize := by omega
      show s.position (min offset s.text.utf8ByteSize) = s.position offset
      unfold position
      rw [hmin]
    obtain ⟨before, after, hboundary, -, -, hsize⟩ := position_in_lines hvalid
    rw [hsame] at hboundary hsize
    obtain rfl := Option.some.inj (hline.symm.trans hboundary)
    obtain ⟨hbegun, hended⟩ := ended_of_boundary (s.lineStart (s.position offset).line) before after
    rw [hsize] at hbegun hended
    rw [hcolumn, hbegun, hended]
  · rw [hcolumn, begun_inside hline hstart hstop hinside]

/-- Behind the first byte of a character of two bytes the column is that of the next character,
though no character has ended. -/
theorem column_inside_character :
    let s : Source := ⟨"", "é"⟩
    s.lines = [['é']] ∧ s.lineStart 1 = 0 ∧ s.position 1 = ⟨1, 1, 2⟩ ∧ ended 1 0 ['é'] + 1 = 1 := by
  exact ⟨by decide, rfl, by decide, rfl⟩

theorem columns_around_character :
    let s : Source := ⟨"", "é"⟩
    (¬ String.Pos.Raw.IsValid s.text ⟨(s.position 1).offset⟩ ∧ ∃ line,
      (s.position 1).column = ended (s.position 1).offset (s.lineStart (s.position 1).line) line + 2) ∧
    (String.Pos.Raw.IsValid s.text ⟨(s.position 2).offset⟩ ∧ ∃ line,
      (s.position 2).column = ended (s.position 2).offset (s.lineStart (s.position 2).line) line + 1) ∧
    1 ≤ 2 ∧ ((s.position 1).line < (s.position 2).line ∨
      (s.position 1).line = (s.position 2).line ∧ (s.position 1).column ≤ (s.position 2).column) := by
  have hinside : ¬ String.Pos.Raw.IsValid "é" ⟨1⟩ := by decide
  have hvalid : String.Pos.Raw.IsValid "é" ⟨2⟩ := by decide
  obtain ⟨-, ⟨line, -, -, -, -, -, -, hcolumn⟩, hlater⟩ := columns_count_begun ⟨"", "é"⟩ 1
  obtain ⟨-, ⟨line', -, -, -, -, -, hcolumn', -⟩, -⟩ := columns_count_begun ⟨"", "é"⟩ 2
  exact ⟨⟨hinside, line, hcolumn hinside⟩, ⟨hvalid, line', hcolumn' hvalid⟩, by decide,
    hlater 2 (by decide)⟩

/-! ## Computations that cannot fail -/

theorem slice?_append {start stop place : Nat} (cs ds : List Char)
    (hstart : start = place + (String.ofList cs).utf8ByteSize) (hle : start ≤ stop) :
    slice? start stop place (cs ++ ds) = slice? start stop start ds := by
  induction cs generalizing place with
  | nil =>
    obtain rfl : start = place := hstart
    rfl
  | cons c cs ih =>
    rw [byteSize_cons] at hstart
    have hc := c.utf8Size_pos
    rw [List.cons_append, slice?, if_neg (by omega), if_neg (by omega), if_pos (by omega),
      if_neg (by omega), ih (by omega)]

theorem slice?_of_append {start place : Nat} (cs ds : List Char) (hstart : start ≤ place) :
    slice? start (place + (String.ofList cs).utf8ByteSize) place (cs ++ ds) = some cs := by
  induction cs generalizing place with
  | nil => cases ds <;> exact if_pos rfl
  | cons c cs ih =>
    have hc := c.utf8Size_pos
    rw [byteSize_cons, List.cons_append, slice?, if_neg (by omega), if_neg (by omega),
      if_neg (by omega), ← Nat.add_assoc, ih (by omega)]
    rfl

/-- What stands between two boundaries of a text is cut out of it. -/
theorem extract?_eq {before cs after : List Char} (h : s.text.toList = before ++ cs ++ after) :
    s.extract? (String.ofList before).utf8ByteSize
      ((String.ofList before).utf8ByteSize + (String.ofList cs).utf8ByteSize) = some cs := by
  unfold extract?
  rw [if_neg (by omega), h, List.append_assoc, slice?_append before _ (Nat.zero_add _).symm (by omega),
    slice?_of_append cs after (Nat.le_refl _)]

/-- The excerpt that shows a line around a column, with marks for so many characters. -/
def around (cs : List Char) (column covered : Nat) : Excerpt :=
  let first := Excerpt.begins cs.length column
  let last := min (first + Excerpt.width) cs.length
  { line := String.ofList ((cs.take last).drop first)
    underline := String.ofList (List.replicate (column - first) ' ' ++
      List.replicate (max (min covered (last - column)) 1) '^') }

/-- Of two beginnings of the same characters the one with fewer bytes begins the other. -/
theorem prefix_of_byteSize_le {cs ds all : List Char} (hcs : cs <+: all) (hds : ds <+: all)
    (h : (String.ofList cs).utf8ByteSize ≤ (String.ofList ds).utf8ByteSize) : cs <+: ds := by
  rcases List.prefix_or_prefix_of_prefix hcs hds with hprefix | ⟨more, rfl⟩
  · exact hprefix
  · rw [byteSize_append] at h
    cases more with
    | nil => exact ⟨[], by rw [List.append_nil, List.append_nil]⟩
    | cons c more =>
      rw [byteSize_cons] at h
      have hc := c.utf8Size_pos
      omega

/-- The characters before a boundary. -/
theorem exists_of_isValid {offset : Nat} (h : String.Pos.Raw.IsValid s.text ⟨offset⟩) :
    ∃ before, before <+: s.text.toList ∧ (String.ofList before).utf8ByteSize = offset := by
  obtain ⟨first, second, htext, hoffset⟩ := String.Pos.Raw.isValid_iff_exists_append.1 h
  refine ⟨first.toList, ⟨second.toList, by rw [htext, String.toList_append]⟩, ?_⟩
  rw [String.ofList_toList]
  exact (congrArg String.Pos.Raw.byteIdx hoffset).symm

end Source
end Workbook
