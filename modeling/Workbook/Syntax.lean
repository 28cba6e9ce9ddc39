/-
What the syntax trees of both languages share.  Every node carries the span of
the text it was read from.
-/
import Workbook.Source

namespace Workbook

/-- A name in a source text. -/
structure Name where
  text : String
  span : Span
  deriving DecidableEq, Repr, Inhabited

/-- A piece of a string that holds expressions. -/
inductive Piece (α : Type)
  | text (s : String)
  | hole (e : α)

/-- An item of a list or an argument; three dots put all items of a list there. -/
inductive Item (α : Type)
  | one (e : α)
  | spread (e : α)

/-- An entry of a record; three dots put all entries of a record there. -/
inductive Entry (α : Type)
  | field (key : Name) (value : α)
  | spread (e : α)

end Workbook
