/-
The two languages of a workbook.
-/

namespace Workbook

/-- A formula is one expression; a script is a list of statements. -/
inductive Language
  | formula
  | script
  deriving DecidableEq, Repr, Inhabited

namespace Language

/-- The language that a tag or a file extension stands for, in any case. -/
def ofTag? (tag : String) : Option Language :=
  match String.ofList (tag.toList.map Char.toLower) with
  | "formula" | "fx" => some .formula
  | "script" | "js" => some .script
  | _ => none

def name : Language → String
  | .formula => "formula"
  | .script => "script"

/-- The language with exactly this name. -/
def ofName? : String → Option Language
  | "formula" => some .formula
  | "script" => some .script
  | _ => none

/-- The file extension of its sources. -/
def fileExtension : Language → String
  | .formula => "fx"
  | .script => "js"

theorem ofName?_name (l : Language) : ofName? l.name = some l := by
  cases l <;> rfl

end Language
end Workbook
