/-
The line of a source text that a message is about, with the place underlined.
-/
import Workbook.Source

namespace Workbook

/-- A resolved place: byte offset and length, line and column. -/
structure Location where
  index : Nat
  line : Nat
  column : Nat
  length : Nat
  deriving DecidableEq, Repr

/-- A piece of a source line and the marks below it. -/
structure Excerpt where
  line : String
  underline : String
  deriving DecidableEq, Repr

namespace Excerpt

/-- The most characters of a line that are shown. -/
def width : Nat := 80

/-- Both rows, one under the other. -/
def text (e : Excerpt) : String :=
  e.line ++ "\n" ++ e.underline

/-- Where the shown piece of a line begins: at its start if all of it fits, and
otherwise so that the column stands in the middle as far as the ends allow. -/
def begins (length column : Nat) : Nat :=
  if length ≤ width then 0 else min (column - width / 2) (length - width)

end Excerpt

namespace Source

/-- The location of a stretch and the excerpt that shows it.  The marks stay
under the piece; at least one is shown. -/
def locate (s : Source) (span : Span) : Location × Excerpt :=
  let cs := (s.line span.line).toList
  let column := min (max span.column 1 - 1) cs.length
  let first := Excerpt.begins cs.length column
  let last := min (first + Excerpt.width) cs.length
  let covered := ((s.extract? span.start span.stop).map List.length).getD 0
  let marks := max (min covered (last - column)) 1
  ({ index := span.start, line := span.line, column := span.column, length := span.length },
    { line := String.ofList ((cs.take last).drop first)
      underline := String.ofList
        (List.replicate (column - first) ' ' ++ List.replicate marks '^') })

end Source
end Workbook
