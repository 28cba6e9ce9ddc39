/-
Members, items and methods of values in formulas.  A method read from a value is a
function that remembers the value.
-/
import Workbook.Formula.Number
import Workbook.Request
import Workbook.Text.Search

namespace Workbook
namespace Formula

/-- The cause that reading a name with a failed value has.  A failure of the engine
stays one. -/
def failedRead (name kind message : String) : Cause :=
  if kind = FailureKind.engine.name then .engine message else .dependency name message

/-- A value that was read under a name; one that stands for a failure fails. -/
def checkedRead (name : String) : Value → Run Value
  | .error kind message _ => Run.fail (failedRead name kind message)
  | v => return v

/-- The characters of a text, each as a string. -/
def characters (cs : List Char) : List Value :=
  cs.map fun c => .string c.toString

end Formula

namespace Engine

open Formula

variable (engine : Engine)

/-! ## Members -/

/-- The value under a key of a mapping; null if there is none. -/
def readEntry (entries : Entries) (key : String) : Run Value := do
  match ← engine.readKey? entries key with
  | some v => checkedRead key v
  | none => return .null

/-- What a value without the member answers. -/
def noMember {α : Type} (v : Value) (name : String) : Run α :=
  Run.mismatch (v.typeName ++ " has no member '" ++ name ++ "'")

/-- The member of a value.  Entries of a mapping go before its methods. -/
def member (v : Value) (name : String) : Run Value :=
  match v with
  | .null => Run.fail (.nullAccess name)
  | .error kind message _ => Run.fail (failedRead name kind message)
  | .mapping entries _ =>
    if Entries.has entries name then engine.readEntry entries name
    else match MappingMethod.ofName? name with
      | some m => Run.newTyped (.mappingMethod entries m)
      | none => return .null
  | .list items _ =>
    if name = "length" then return .ofInt items.length
    else match ListMethod.ofName? name with
      | some m => Run.newTyped (.listMethod items m)
      | none => noMember v name
  | .string s =>
    if name = "length" then return .ofInt s.length
    else match StringMethod.ofName? name with
      | some m => Run.newTyped (.stringMethod s m)
      | none => noMember v name
  | .bytes b => if name = "length" then return .ofInt b.data.length else noMember v name
  | _ => noMember v name

/-! ## Items -/

/-- The position that an index designates.  One that is negative, or that 64 bits do
not hold, designates none. -/
def position (index : Value) : Run (Option Nat) := do
  let natural (n : Int) : Option Nat := if 0 ≤ n ∧ n < UInt64.size then some n.toNat else none
  let notInteger : Run (Option Nat) := do
    Run.mismatch ("index must be an integer, got " ++ (← engine.ask (.text index false)))
  match index with
  | .integer n => return natural n.toInt
  | .float x =>
    if Number.isIntegral x then return (Number.truncated? x).bind natural else notInteger
  | _ => notInteger

/-- The item at a position; null past the end. -/
def itemAt (v : Value) (i : Option Nat) : Run Value :=
  match i with
  | none => return .null
  | some i =>
    match v with
    | .list items _ => return items[i]?.getD .null
    | .string s => return (s.toList[i]?.map fun c => .string c.toString).getD .null
    | .bytes b => return (b.data[i]?.map fun x => .ofInt x.toNat).getD .null
    | v => Run.mismatch ("cannot index " ++ v.typeName ++ " with a number")

/-- The item of a value under an index.  A mapping takes strings and integers of 64
bits for keys. -/
def item (v index : Value) : Run Value := do
  match v, index with
  | .null, _ =>
    Run.fail (.nullAccess ("[" ++ (← engine.ask (.text index false)) ++ "]"))
  | .error kind message _, _ =>
    Run.fail (failedRead ("[" ++ (← engine.ask (.text index false)) ++ "]") kind message)
  | .mapping entries _, .string k => engine.readEntry entries k
  | .mapping entries _, .integer n => engine.readEntry entries (Json.integerText n.toInt)
  | _, .integer _ | _, .float _ => itemAt v (← engine.position index)
  | _, _ => Run.mismatch ("cannot index " ++ v.typeName ++ " with " ++ index.typeName)

/-! ## Arguments of methods -/

def functionArgument (method : String) (arguments : List Value) (i : Nat) : Run Callable :=
  match (arguments[i]? : Option Value) with
  | some (.function f) => return f
  | _ => Run.mismatch (method ++ " expects a function as argument " ++ toString (i + 1))

def stringArgument (method : String) (arguments : List Value) (i : Nat) : Run String :=
  match (arguments[i]? : Option Value) with
  | some (.string s) => return s
  | _ => Run.mismatch (method ++ " expects a string as argument " ++ toString (i + 1))

/-- An integer that may be left out or null.  One that 64 bits do not hold counts as
the nearest that they do. -/
def integerArgument (method : String) (arguments : List Value) (i : Nat) : Run (Option Int) := do
  let refused (v : Value) : Run (Option Int) :=
    Run.mismatch (method ++ " expects an integer as argument " ++ toString (i + 1) ++ ", got " ++
      v.typeName)
  match (arguments[i]? : Option Value) with
  | none | some .null => return none
  | some (.integer n) => return some n.toInt
  | some (.float x) =>
    if Number.isIntegral x then return some (Number.clamped Number.leastWord Number.greatestWord x)
    else refused (.float x)
  | some v => refused v

/-- A bound of a slice within a length.  A negative one counts from the end. -/
def sliceBound (bound : Option Int) (length standard : Nat) : Nat :=
  match bound with
  | none => standard
  | some n => if n < 0 then length - n.natAbs else min n.toNat length

/-- The answer of a function that chooses items. -/
def chosen (method : String) : Value → Run Bool
  | .boolean b => return b
  | .null => return false
  | v => Run.mismatch (method ++ " callback must return a boolean, got " ++ v.typeName)

/-! ## Lists -/

/-- The values that a function has for items and their positions. -/
def mapItems (f : Callable) : Nat → List Value → Run (List Value)
  | _, [] => return []
  | i, v :: rest => do
    let w ← engine.call f [v, .ofInt i]
    return w :: (← mapItems f (i + 1) rest)

/-- The items that a function chooses. -/
def filterItems (f : Callable) : Nat → List Value → Run (List Value)
  | _, [] => return []
  | i, v :: rest => do
    let keep ← chosen "list.filter" (← engine.call f [v, .ofInt i])
    let tail ← filterItems f (i + 1) rest
    return if keep then v :: tail else tail

/-- A value combined with each item in turn. -/
def foldItems (f : Callable) : Value → List Value → Run Value
  | acc, [] => return acc
  | acc, v :: rest => do foldItems f (← engine.call f [acc, v]) rest

/-- Whether an item equals a value. -/
def hasItem (needle : Value) : List Value → Run Bool
  | [] => return false
  | v :: rest => do
    if ← engine.ask (.equal v needle) then return true else hasItem needle rest

/-- The value of a method of a list. -/
def callListMethod (items : List Value) (m : ListMethod) (arguments : List Value) : Run Value := do
  match m with
  | .map =>
    let f ← functionArgument "list.map" arguments 0
    return .ofItems (← engine.mapItems f 0 items)
  | .filter =>
    let f ← functionArgument "list.filter" arguments 0
    return .ofItems (← engine.filterItems f 0 items)
  | .reduce =>
    let f ← functionArgument "list.reduce" arguments 0
    match arguments[1]?, items with
    | some start, items => engine.foldItems f start items
    | none, first :: rest => engine.foldItems f first rest
    | none, [] => Run.mismatch "list.reduce of an empty list needs an initial value"
  | .concat =>
    let more (v : Value) : List Value := match v with
      | .list items _ => items
      | v => [v]
    return .ofItems (items ++ arguments.flatMap more)
  | .slice =>
    let start := sliceBound (← integerArgument "list.slice" arguments 0) items.length 0
    let stop := sliceBound (← integerArgument "list.slice" arguments 1) items.length items.length
    return .ofItems ((items.take stop).drop start)
  | .join =>
    let separator ← match (arguments[0]? : Option Value) with
      | none | some .null => pure ","
      | some _ => stringArgument "list.join" arguments 0
    let texts ← items.mapM fun v => engine.ask (.text v false)
    return .string (separator.intercalate texts)
  | .contains => return .boolean (← engine.hasItem (arguments[0]?.getD .null) items)

/-! ## Strings and mappings -/

/-- The value of a method of a string. -/
def callStringMethod (s : String) (m : StringMethod) (arguments : List Value) : Run Value := do
  match m with
  | .upper => return .string (Text.upper s)
  | .lower => return .string (Text.lower s)
  | .trim => return .string (String.ofList (Text.trim s.toList))
  | .split =>
    let separator ← stringArgument "string.split" arguments 0
    return .ofItems
      ((Text.split separator.toList s.toList).map fun cs => .string (String.ofList cs))
  | .contains =>
    let needle ← stringArgument "string.contains" arguments 0
    return .boolean (Text.contains needle.toList s.toList)

/-- The value of a method of a mapping. -/
def callMappingMethod (entries : Entries) (m : MappingMethod) (arguments : List Value) :
    Run Value := do
  match m with
  | .keys => return .ofItems ((Entries.keys entries).map .string)
  | .values => return .ofItems ((← engine.readAll entries).map (·.2))
  | .has => return .boolean (Entries.has entries (← stringArgument "mapping.has" arguments 0))

end Engine
end Workbook
