/-
The outcome of an evaluation in JSON: its value and type, or what went wrong.
-/
import Workbook.Session.Evaluation
import Workbook.Value.Projection

namespace Workbook

/-- A location in JSON. -/
def Location.json (l : Location) : Json :=
  .object [("index", .integer l.index), ("line", .integer l.line), ("column", .integer l.column),
    ("length", .integer l.length)]

/-- An excerpt in JSON. -/
def Excerpt.json (e : Excerpt) : Json :=
  .object [("line_text", .string e.line), ("underline", .string e.underline)]

/-- A detail in JSON.  What it does not have is left out. -/
def Detail.json (d : Detail) : Json :=
  let place := match d.place with
    | some (l, e) => [("location", l.json), ("context", e.json)]
    | none => []
  let stack := match d.stack with
    | some s => [("stack", .string s)]
    | none => []
  .object ([("kind", .string d.kind.name), ("message", .string d.message)] ++ place ++ stack)

namespace Engine

variable (engine : Engine)

/-- An outcome in JSON.  The sides that it does not have are null. -/
def outcomeJson (o : Outcome) : Run Json := do
  let report (value type error details : Json) : Json :=
    .object [("value", value), ("type", type), ("error", error), ("errorDetails", details)]
  match o with
  | .value _ v => return report (← engine.json v) (.string v.typeName) .null .null
  | .failure first more =>
    return report .null .null (.string first.message)
      (.array ((first :: more).map Detail.json))

end Engine
end Workbook
