/-
Syntax trees in JSON.  A node is a list of its kind, its span and its parts.
-/
import Workbook.Json.Printer
import Workbook.Syntax

namespace Workbook

/-- A span in JSON: its ends, its line and its column. -/
def Span.json (s : Span) : Json :=
  .array [.integer s.start, .integer s.stop, .integer s.line, .integer s.column]

/-- A name in JSON. -/
def Name.json (n : Name) : Json :=
  .array [.string n.text, n.span.json]

namespace Json

/-- A node of a tree. -/
def node (kind : String) (span : Span) (parts : List Json) : Json :=
  .array (.string kind :: span.json :: parts)

/-- A part that may be missing. -/
def ofOption : Option Json → Json
  | some j => j
  | none => .null

/-- A double as its bits. -/
def bits (x : Float) : Json :=
  .string (Number.bitsText x)

/-- One of several parts. -/
def part (kind : String) (j : Json) : Json :=
  .array [.string kind, j]

end Json
end Workbook
