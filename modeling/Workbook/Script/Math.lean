/-
The functions of the object `Math`.  They take what their arguments are as numbers,
and never fail.
-/
import Workbook.Number.Exact
import Workbook.Script.Builtin

namespace Workbook
namespace Script
namespace MathFunction

/-- A number rounded to an integer, a half toward positive infinity. -/
def roundUp (x : Float) : Float :=
  Number.floor (x + 0.5)

/-- One with the sign of a number; zeros and what denotes no number stay. -/
def signOf (x : Float) : Float :=
  if 0 < x then 1 else if x < 0 then -1 else x

/-- The first of the numbers in an order, which is `start` if there are none.  A number
that denotes nothing spoils all. -/
def extreme (before : Float → Float → Bool) (start : Float) (xs : List Float) : Float :=
  if xs.any Float.isNaN then Number.nan
  else xs.foldl (fun best x => if before x best then x else best) start

/-- The square root of the sum of squares.  The sum of none is the negative zero, which
added to anything leaves it as it is. -/
def length (xs : List Float) : Float :=
  (xs.foldl (fun sum x => sum + x * x) Number.negativeZero).sqrt

/-- The value of the function.  Missing arguments denote no number. -/
def apply (f : MathFunction) (xs : List Float) : Float :=
  let x := xs[0]?.getD Number.nan
  let y := xs[1]?.getD Number.nan
  match f with
  | .abs => x.abs
  | .floor => Number.floor x
  | .ceil => Number.ceil x
  | .round => roundUp x
  | .trunc => Number.trunc x
  | .sign => signOf x
  | .sqrt => x.sqrt
  | .cbrt => Number.cbrt x
  | .sin => x.sin
  | .cos => x.cos
  | .tan => x.tan
  | .asin => x.asin
  | .acos => x.acos
  | .atan => x.atan
  | .exp => x.exp
  | .log => x.log
  | .log2 => x.log2
  | .log10 => x.log10
  | .atan2 => Float.atan2 x y
  | .pow => Float.pow x y
  | .hypot => length xs
  | .min => extreme (fun a b => a < b) Number.infinity xs
  | .max => extreme (fun a b => b < a) Number.negativeInfinity xs

end MathFunction
end Script
end Workbook
