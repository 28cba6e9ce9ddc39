/-
The mapping `math`.  Its functions take numbers of all tags; those that round
yield integers, and those that cannot be exact yield finite doubles or fail.
-/
import Workbook.Formula.Number
import Workbook.Request

namespace Workbook
namespace Formula
namespace MathFunction

variable (f : MathFunction)

/-- The fault of an argument that is no number, counted from zero. -/
def notNumber (i : Nat) : Fault :=
  .runtime ("math." ++ f.name ++ " expects a number as argument " ++ toString (i + 1))

/-- An argument that must be a number. -/
def numeric (arguments : List Value) (i : Nat) : Except Fault Value :=
  match (arguments[i]? : Option Value) with
  | some v => if v.float?.isSome then .ok v else .error (f.notNumber i)
  | none => .error (f.notNumber i)

/-- An argument that must be a number, as a double. -/
def double (arguments : List Value) (i : Nat) : Except Fault Float := do
  return ((← f.numeric arguments i).float?).getD Number.nan

/-- A double that must be finite. -/
def finite (x : Float) : Except Fault Value :=
  if x.isFinite then .ok (.float x)
  else .error (.runtime ("math." ++ f.name ++ " produced a non-finite result"))

/-- A function of one double. -/
def unary (op : Float → Float) (arguments : List Value) : Except Fault Value := do
  f.finite (op (← f.double arguments 0))

/-- A function of two doubles. -/
def binary (op : Float → Float → Float) (arguments : List Value) : Except Fault Value := do
  let x ← f.double arguments 0
  let y ← f.double arguments 1
  f.finite (op x y)

/-- Rounds a double to an integer; integers stay. -/
def rounding (op : Float → Float) (arguments : List Value) : Except Fault Value := do
  match ← f.numeric arguments 0 with
  | .float x =>
    match Number.truncated? (op x) with
    | some n => return .ofInt n
    | none => f.finite x
  | v => return v

def absolute (arguments : List Value) : Except Fault Value := do
  let v ← f.numeric arguments 0
  match v.int?, v with
  | some n, _ => return .ofInt n.natAbs
  | none, .float x => f.finite x.abs
  | none, v => return v

/-- The first of the numbers that come before all others in an order; either the
arguments or the items of a list that is the only argument. -/
def extreme (wanted : Ordering) (arguments : List Value) : Except Fault Value := do
  let items := match arguments with
    | [.list items _] => items
    | _ => arguments
  let numbers ← (List.range items.length).mapM (f.numeric items)
  match numbers with
  | [] => .error (.runtime ("math." ++ f.name ++ " expects at least one number"))
  | first :: rest =>
    return rest.foldl (fun best v => if compare? v best = some wanted then v else best) first

/-- A number kept between two others. -/
def clamped (arguments : List Value) : Except Fault Value := do
  let v ← f.numeric arguments 0
  let low ← f.numeric arguments 1
  let high ← f.numeric arguments 2
  if compare? v low = some .lt then return low
  else if compare? v high = some .gt then return high
  else return v

/-- The largest exponent of an exact power. -/
def maxExponent : Int := 4096

/-- A power.  One of integers is exact if its exponent is neither negative nor too
large. -/
def power (arguments : List Value) : Except Fault Value := do
  let base ← f.numeric arguments 0
  let exponent ← f.numeric arguments 1
  match base, exponent with
  | .integer b, .integer e =>
    if 0 ≤ e.toInt ∧ e.toInt ≤ maxExponent then return .ofInt (Number.power b.toInt e.toInt.toNat)
    else f.binary Float.pow arguments
  | _, _ => f.binary Float.pow arguments

/-- The value of the function. -/
def apply (arguments : List Value) : Except Fault Value :=
  match f with
  | .abs => f.absolute arguments
  | .floor => f.rounding Number.floor arguments
  | .ceil => f.rounding Number.ceil arguments
  | .round => f.rounding Number.round arguments
  | .trunc => f.rounding Number.trunc arguments
  | .min => f.extreme .lt arguments
  | .max => f.extreme .gt arguments
  | .clamp => f.clamped arguments
  | .pow => f.power arguments
  | .sqrt => f.unary Float.sqrt arguments
  | .sin => f.unary Float.sin arguments
  | .cos => f.unary Float.cos arguments
  | .tan => f.unary Float.tan arguments
  | .asin => f.unary Float.asin arguments
  | .acos => f.unary Float.acos arguments
  | .atan => f.unary Float.atan arguments
  | .exp => f.unary Float.exp arguments
  | .log => f.unary Float.log arguments
  | .atan2 => f.binary Float.atan2 arguments
  | .hypot => f.binary Number.hypot arguments

end MathFunction

/-! ## The mapping -/

/-- The doubles nearest to pi, to the base of the natural logarithm and to the full
angle. -/
def constants : List (String × Float) :=
  [("pi", 3.14159265358979323846), ("e", 2.71828182845904523536),
    ("tau", 6.28318530717958647693)]

/-- New functions with their names as the entries of a mapping. -/
def newFunctions : List (String × TypedCode) → Run Entries
  | [] => return []
  | (k, code) :: rest => do
    let f ← Run.newTyped code
    return (k, .ready f) :: (← newFunctions rest)

/-- The mapping `math`, made anew. -/
def newMath : Run Value := do
  let functions ← newFunctions (MathFunction.all.map fun f => (f.name, .math f))
  return .ofEntries (constants.map (fun (k, x) => (k, .ready (.float x))) ++ functions)

end Formula
end Workbook
