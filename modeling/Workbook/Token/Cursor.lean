/-
A place in a source text together with the characters after it.
-/
import Workbook.Source

namespace Workbook

structure Cursor where
  rest : List Char
  place : Position

namespace Cursor

def start (text : String) : Cursor :=
  ⟨text.toList, Position.start⟩

/-- The cursor after the next `n` characters. -/
def drop (c : Cursor) (n : Nat) : Cursor :=
  ⟨c.rest.drop n, c.place.after (c.rest.take n)⟩

/-- The next `n` characters. -/
def take (c : Cursor) (n : Nat) : String :=
  String.ofList (c.rest.take n)

/-- The next `n` characters as a stretch of the text. -/
def span (c : Cursor) (n : Nat) : Span :=
  Span.between c.place (c.drop n).place

@[simp] theorem length_rest_drop (c : Cursor) (n : Nat) :
    (c.drop n).rest.length = c.rest.length - n := by
  simp [drop]

theorem drop_zero (c : Cursor) : c.drop 0 = c := by
  cases c; simp [drop]

theorem drop_drop (c : Cursor) (m n : Nat) : (c.drop m).drop n = c.drop (m + n) := by
  simp only [drop, List.drop_drop, mk.injEq, true_and]
  rw [← Position.after_append, List.take_add]

end Cursor
end Workbook
