/-
What the built-in functions of scripts do.
-/
import Workbook.Json.Parser
import Workbook.Native.Conversion
import Workbook.Script.Math
import Workbook.Script.Property

namespace Workbook
namespace Script

/-- An argument; one that is missing is undefined. -/
def argument (arguments : List Native) (i : Nat) : Native :=
  arguments[i]?.getD .undefined

/-- Whether an argument that asks for indentation does so. -/
def wantsIndentation (x : Float) : Bool :=
  x.isFinite && 1 ≤ x

/-- The moment so many seconds after the beginning of 1970, to the nearest
millisecond. -/
def momentOfSeconds (seconds : Float) : Except Fault Native :=
  if !seconds.isFinite then
    .error (.runtime "Date.fromTimestamp expects a finite number of seconds")
  else
    let n := Number.clamped Number.leastWord Number.greatestWord (Number.round (seconds * 1000))
    if Calendar.covers n then .ok (.date n)
    else .error (.runtime ("timestamp " ++ Number.literalText seconds ++ " is out of range"))

end Script

namespace Run

open Script

/-- A value in JSON text; undefined if JSON cannot express it. -/
def stringify (v : Native) (indented : Bool) : Run Native := do
  match ← ofFaulty (v.toJson (← get)) with
  | none => return .undefined
  | some j => return .string (if indented then j.pretty else j.compact)

/-- New values that hold what a JSON text describes. -/
def parseJson (text : String) : Run Native :=
  match Json.parse text with
  | .ok j => nativeOfJson j
  | .error e => fault (.runtime ("JSON.parse: " ++ e.message text))

/-- Sets the properties of the sources on an object, one source after the other. -/
def assignAll (place : Nat) : List Native → Run Unit
  | [] => return
  | v :: rest => do
    modifyFields place (Keyed.putAll (v.properties (← get)))
    assignAll place rest

/-- A pair as an array. -/
def newPairs : Fields → Run (List Native)
  | [] => return []
  | (k, v) :: rest => do
    let pair ← newArray #[.string k, v]
    return pair :: (← newPairs rest)

/-- The value of a built-in function. -/
def callBuiltin (b : Builtin) (arguments : List Native) : Run Native := do
  let s ← get
  let v := argument arguments 0
  match b with
  | .number => return .number (v.toNumber s)
  | .string => return .string (v.text s)
  | .boolean => return .boolean v.isTruthy
  | .parseInt =>
    let base := match argument arguments 1 with
      | .undefined => 10
      | r => (Number.clamped 0 (UInt32.size - 1) (r.toNumber s)).toNat
    return .number (Number.leadingInteger base (v.text s))
  | .parseFloat => return .number (Number.leadingDecimal (v.text s))
  | .isNaN => return .boolean (v.toNumber s).isNaN
  | .isFinite => return .boolean (v.toNumber s).isFinite
  | .math f => return .number (f.apply (arguments.map (·.toNumber s)))
  | .stringify => stringify v (wantsIndentation ((argument arguments 2).toNumber s))
  | .parseJson => parseJson (v.text s)
  | .keys => newArray ((v.properties s).map fun e => .string e.1).toArray
  | .values | .arrayFrom => newArray ((v.properties s).map (·.2)).toArray
  | .entries => newArray (← newPairs (v.properties s)).toArray
  | .assign =>
    match v with
    | .object place =>
      assignAll place (arguments.drop 1)
      return v
    | _ => fault (.runtime "Object.assign target must be an object")
  | .isArray =>
    return .boolean (match v with
      | .array _ => true
      | _ => false)
  | .fromTimestamp => ofFaulty (momentOfSeconds (v.toNumber s))
  | .console severity =>
    let line := " ".intercalate (arguments.map (·.text s))
    modify fun s => { s with console := s.console.push (severity, line) }
    return .undefined

end Run
end Workbook
