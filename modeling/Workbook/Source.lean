/-
Source texts and places in them.  Offsets count bytes, lines and columns count
from one, and a column counts characters.
-/

namespace Workbook

/-- A place between two characters. -/
structure Position where
  offset : Nat
  line : Nat
  column : Nat
  deriving DecidableEq, Repr, Inhabited

namespace Position

/-- The beginning of a text. -/
def start : Position := ⟨0, 1, 1⟩

/-- The place after a character. -/
def next (p : Position) (c : Char) : Position :=
  if c = '\n' then ⟨p.offset + c.utf8Size, p.line + 1, 1⟩
  else ⟨p.offset + c.utf8Size, p.line, p.column + 1⟩

/-- The place after several characters. -/
def after (p : Position) (cs : List Char) : Position :=
  cs.foldl next p

@[simp] theorem after_nil (p : Position) : p.after [] = p := rfl

@[simp] theorem after_cons (p : Position) (c : Char) (cs : List Char) :
    p.after (c :: cs) = (p.next c).after cs := rfl

theorem after_append (p : Position) (cs ds : List Char) :
    p.after (cs ++ ds) = (p.after cs).after ds := by
  simp [after, List.foldl_append]

end Position

/-- A stretch of source text: its bytes from `start` up to `stop`, and the line
and column of `start`. -/
structure Span where
  start : Nat
  stop : Nat
  line : Nat
  column : Nat
  deriving DecidableEq, Repr, Inhabited

namespace Span

/-- The stretch between two places. -/
def between (p q : Position) : Span :=
  ⟨p.offset, q.offset, p.line, p.column⟩

/-- The empty stretch at a place. -/
def point (p : Position) : Span :=
  between p p

/-- Its length in bytes. -/
def length (s : Span) : Nat :=
  s.stop - s.start

def isEmpty (s : Span) : Bool :=
  s.length == 0

/-- The stretch that covers both, placed where the earlier one begins. -/
def merge (s t : Span) : Span :=
  let first := if s.start ≤ t.start then s else t
  ⟨first.start, max s.stop t.stop, first.line, first.column⟩

/-- The line and column, as messages name a place. -/
def text (s : Span) : String :=
  s!"{s.line}:{s.column}"

end Span

/-- A named text. -/
structure Source where
  name : String
  text : String
  deriving Inhabited

namespace Source

/-- The lines of a text, which a line feed ends. -/
def splitLines : List Char → List (List Char)
  | [] => [[]]
  | c :: cs =>
    if c = '\n' then [] :: splitLines cs
    else match splitLines cs with
      | line :: lines => (c :: line) :: lines
      | [] => [[c]]

def lines (s : Source) : List (List Char) :=
  splitLines s.text.toList

/-- How many lines the text has; a line feed at the end begins another. -/
def lineCount (s : Source) : Nat :=
  s.lines.length

/-- The line with the given number, counted from one, without the carriage
returns at its end. -/
def line? (s : Source) (number : Nat) : Option String :=
  if number = 0 then none
  else s.lines[number - 1]?.map fun cs =>
    String.ofList (cs.reverse.dropWhile (· = '\r')).reverse

/-- The line with the given number, empty if there is none. -/
def line (s : Source) (number : Nat) : String :=
  (s.line? number).getD ""

/-- The characters that begin before a byte offset counted from `place`. -/
def before (offset place : Nat) : List Char → List Char
  | [] => []
  | c :: cs => if place < offset then c :: before offset (place + c.utf8Size) cs else []

/-- The place of a byte offset.  An offset past the end is the end; an offset
inside a character has the line and column of the place after it. -/
def position (s : Source) (offset : Nat) : Position :=
  let offset := min offset s.text.utf8ByteSize
  { Position.start.after (before offset 0 s.text.toList) with offset := offset }

/-- The stretch between two byte offsets. -/
def span (s : Source) (start stop : Nat) : Span :=
  let p := s.position start
  ⟨start, max start stop, p.line, p.column⟩

/-- The characters from `place` on that begin at or after `start` and before
`stop`; none if one of the two falls inside a character or past the end. -/
def slice? (start stop place : Nat) : List Char → Option (List Char)
  | [] => if place = stop then some [] else none
  | c :: cs =>
    if place = stop then some []
    else if stop < place then none
    else if place < start then
      (if start < place + c.utf8Size then none else slice? start stop (place + c.utf8Size) cs)
    else (slice? start stop (place + c.utf8Size) cs).map (c :: ·)

/-- The text between two byte offsets, if both are boundaries of characters. -/
def extract? (s : Source) (start stop : Nat) : Option (List Char) :=
  if stop < start then none else slice? start stop 0 s.text.toList

end Source
end Workbook
