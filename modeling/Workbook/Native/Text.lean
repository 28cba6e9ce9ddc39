/-
Native values as text and as numbers.  Both read the store, where an array may
contain itself.
-/
import Workbook.Calendar
import Workbook.Json.Printer
import Workbook.Store.Containers

namespace Workbook
namespace Native

/-- The text of a value inside the arrays `outer`.  An array that is inside itself
shows as nothing there; `fuel` bounds how deep arrays are nested. -/
def textIn (s : Store) : Nat → List Nat → Native → String
  | _, _, undefined => "undefined"
  | _, _, null => "null"
  | _, _, boolean b => if b then "true" else "false"
  | _, _, number x => Number.text x
  | _, _, big n => Json.integerText n
  | _, _, string t => t
  | _, _, date n => Calendar.text n
  | _, _, bytes b => "[bytes " ++ toString b.data.length ++ "]"
  | _, _, object _ => "[object Object]"
  | _, _, function f => "function " ++ f.code.name ++ "() \x7b [native code] \x7d"
  | _, _, marker m => "[" ++ m ++ "]"
  | 0, _, array _ => ""
  | fuel + 1, outer, array place =>
    if outer.contains place then ""
    else
      ",".intercalate <| (s.items place).toList.map fun v =>
        if v.isNullish then "" else textIn s fuel (place :: outer) v

/-- The text that a value is converted to. -/
def text (s : Store) (v : Native) : String :=
  v.textIn s (s.arrays.size + 1) []

/-- The number that a value is converted to; `fuel` bounds how deep arrays of one
item are nested. -/
def numberIn (s : Store) : Nat → Native → Float
  | _, undefined => Number.nan
  | _, null => 0
  | _, boolean b => if b then 1 else 0
  | _, number x => x
  | _, big n => Number.ofInt n
  | _, string t => Number.ofText t
  | _, date n => Number.ofInt n
  | 0, array _ => Number.nan
  | fuel + 1, array place =>
    match (s.items place).toList with
    | [] => 0
    | [v] => numberIn s fuel v
    | _ => Number.nan
  | _, _ => Number.nan

/-- The number that a value is converted to. -/
def toNumber (s : Store) (v : Native) : Float :=
  v.numberIn s (s.arrays.size + 1)

end Native

namespace Run

/-- The text that a native value is converted to. -/
def textOf (v : Native) : Run String := do
  return v.text (← get)

/-- The number that a native value is converted to. -/
def numberOf (v : Native) : Run Float := do
  return v.toNumber (← get)

end Run
end Workbook
