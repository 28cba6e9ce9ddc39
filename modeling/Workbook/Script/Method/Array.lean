/-
Calls of native values and of the methods of arrays.  A method that takes a function
walks over the items as they were when it was called, whatever the function does to
the array.
-/
import Workbook.Formula.Number
import Workbook.Request
import Workbook.Script.Method.Scalar

namespace Workbook
namespace Engine

open Script

variable (engine : Engine)

/-- Calls a value; `what` names it if it is no function.  A function of a script is
called in sight of its failures' places. -/
def callValue (v : Native) (arguments : List Native) (what : String) : Run Native :=
  match v with
  | .function (.mk id code) =>
    match code with
    | .script run block f name => engine.ask (.invoke run block f name arguments)
    | code => engine.ask (.callNative (.mk id code) arguments)
  | _ => Run.mismatch (what ++ " is not a function")

/-! ## Walking over items -/

/-- What a function yields for the items and their positions from `i` on. -/
def mapped (f : Native) (what : String) (i : Nat) : List Native → Run (List Native)
  | [] => return []
  | v :: rest => do
    let w ← engine.callValue f [v, .ofNat i] what
    return w :: (← mapped f what (i + 1) rest)

/-- Calls a function for the items and their positions from `i` on. -/
def forEach (f : Native) (i : Nat) : List Native → Run Unit
  | [] => return
  | v :: rest => do
    let _ ← engine.callValue f [v, .ofNat i] "forEach callback"
    forEach f (i + 1) rest

/-- The first item from position `i` on for which a function's answer counts as
`wanted`. -/
def firstWith (wanted : Bool) (f : Native) (what : String) (i : Nat) :
    List Native → Run (Option (Nat × Native))
  | [] => return none
  | v :: rest => do
    let answer ← engine.callValue f [v, .ofNat i] what
    if answer.isTruthy == wanted then return some (i, v)
    else firstWith wanted f what (i + 1) rest

/-- A value combined with each item in turn. -/
def folded (f : Native) (acc : Native) (i : Nat) : List Native → Run Native
  | [] => return acc
  | v :: rest => do
    let acc ← engine.callValue f [acc, v, .ofNat i] "reduce callback"
    folded f acc (i + 1) rest

/-- The items combined from the left. -/
def reduced (arguments : List Native) (items : List Native) : Run Native :=
  let f := argument arguments 0
  match arguments[1]?, items with
  | some start, items => engine.folded f start 0 items
  | none, first :: rest => engine.folded f first 1 rest
  | none, [] => Run.mismatch "reduce of empty array with no initial value"

/-! ## Sorting -/

/-- Whether the first value has to come after the second.  Undefined comes last; without
a comparison, values are ordered as texts. -/
def sortsAfter (comparison a b : Native) : Run Bool := do
  match a, b, comparison with
  | .undefined, .undefined, _ => return false
  | .undefined, _, _ => return true
  | _, .undefined, _ => return false
  | a, b, .undefined =>
    return Formula.compareStrings (← Run.textOf a) (← Run.textOf b) == .gt
  | a, b, f => return 0 < (← Run.numberOf (← engine.callValue f [a, b] "sort comparator"))

/-- Puts a value into a sorted list, which is given from the end. -/
def placed (comparison v : Native) : List Native → Run (List Native)
  | [] => return [v]
  | w :: before => do
    if ← engine.sortsAfter comparison w v then return w :: (← placed comparison v before)
    else return v :: w :: before

/-- The items sorted behind a sorted list that is given from the end.  Equal items stay
in order, and an inconsistent comparison does no harm. -/
def sorted (comparison : Native) (done : List Native) : List Native → Run (List Native)
  | [] => return done.reverse
  | v :: rest => do sorted comparison (← engine.placed comparison v done) rest

/-! ## The methods -/

/-- Whether a value is a number that denotes nothing. -/
def isNotANumber : Native → Bool
  | .number x => x.isNaN
  | _ => false

/-- The items of the arguments: of arrays their items, and other values themselves. -/
def joinedItems (s : Store) (arguments : List Native) : List Native :=
  arguments.flatMap fun v => match v with
    | .array place => (s.items place).toList
    | v => [v]

/-- The texts of the items with a separator between them. -/
def joinedText (s : Store) (items : List Native) (separator : String) : String :=
  separator.intercalate (items.map fun v => if v.isNullish then "" else v.text s)

/-- The value of a method that walks over the items of an array. -/
def walkArray (place : Nat) (items : List Native) (m : ArrayMethod) (arguments : List Native) :
    Run Native := do
  let first := argument arguments 0
  match m with
  | .map => Run.newArray (← engine.mapped first "map callback" 0 items).toArray
  | .filter =>
    let answers ← engine.mapped first "filter callback" 0 items
    let kept := (items.zip answers).filter (·.2.isTruthy)
    Run.newArray (kept.map (·.1)).toArray
  | .forEach =>
    engine.forEach first 0 items
    return .undefined
  | .find =>
    let found ← engine.firstWith true first "find callback" 0 items
    return (found.map (·.2)).getD .undefined
  | .findIndex =>
    let found ← engine.firstWith true first "find callback" 0 items
    return (found.map fun e => .ofNat e.1).getD (.number (-1))
  | .some => return .boolean (← engine.firstWith true first "some callback" 0 items).isSome
  | .every => return .boolean (← engine.firstWith false first "every callback" 0 items).isNone
  | .reduce => engine.reduced arguments items
  | .slice =>
    let s ← get
    let start := bound s first items.length 0
    let stop := bound s (argument arguments 1) items.length items.length
    Run.newArray ((items.drop start).take (stop - start)).toArray
  | .concat => Run.newArray (items ++ joinedItems (← get) arguments).toArray
  | .join => return .string (joinedText (← get) items ((text? (← get) arguments 0).getD ","))
  | .indexOf =>
    return ((items.findIdx? (·.strictEquals first)).map .ofNat).getD (.number (-1))
  | .includes =>
    return .boolean (items.any fun v =>
      v.strictEquals first || (isNotANumber first && isNotANumber v))
  | .sort =>
    let items ← engine.sorted first [] items
    Run.modifyItems place fun _ => items.toArray
    return .array place
  | _ => return .undefined

/-- The value of a method of an array. -/
def callArrayMethod (place : Nat) (m : ArrayMethod) (arguments : List Native) : Run Native := do
  match m with
  | .push =>
    Run.modifyItems place (· ++ arguments.toArray)
    return .ofNat (← Run.items place).size
  | .pop =>
    let last := (← Run.items place).back?
    Run.modifyItems place (·.pop)
    return last.getD .undefined
  | .shift =>
    let first := (← Run.items place)[0]?
    Run.modifyItems place (·.drop 1)
    return first.getD .undefined
  | .unshift =>
    Run.modifyItems place (arguments.toArray ++ ·)
    return .ofNat (← Run.items place).size
  | .reverse =>
    Run.modifyItems place (·.reverse)
    return .array place
  | m => engine.walkArray place (← Run.items place).toList m arguments

/-- Calls a method: one that the receiver's type has, or else the value of the
property. -/
def callMethod (receiver : Native) (name : String) (arguments : List Native) : Run Native := do
  let other : Run Native := do
    match ← Run.property receiver name with
    | .function f => engine.callValue (.function f) arguments name
    | _ => Run.mismatch (receiver.typeOf ++ "." ++ name ++ " is not a function")
  match receiver with
  | .array place =>
    match ArrayMethod.ofName? name with
    | some m => engine.callArrayMethod place m arguments
    | none => other
  | .string t =>
    match StringMethod.ofName? name with
    | some m => applyStringMethod t m arguments
    | none => other
  | .number x =>
    match NumberMethod.ofName? name with
    | some m => Run.ofExcept (applyNumberMethod (← get) x m arguments)
    | none => other
  | .date n =>
    match DateMethod.ofName? name with
    | some m => return applyDateMethod n m
    | none => other
  | _ => other

end Engine
end Workbook
