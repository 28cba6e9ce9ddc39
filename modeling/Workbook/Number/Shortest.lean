/-
The fewest decimal digits that read back as a given double, and of those the
nearest to it.
-/
import Workbook.Number.Exact

namespace Workbook
namespace Number

/-- The number `coefficient * 10 ^ exponent`. -/
structure Decimal where
  coefficient : Nat
  exponent : Int
  deriving DecidableEq, Repr

namespace Decimal

/-- Removes the zeros at the end of the coefficient. -/
def strip (coefficient : Nat) (exponent : Int) : Decimal :=
  if h : coefficient ≠ 0 ∧ coefficient % 10 = 0 then strip (coefficient / 10) (exponent + 1)
  else ⟨coefficient, exponent⟩
termination_by coefficient
decreasing_by omega

end Decimal

namespace Shortest

/-- A positive rational number. -/
structure Ratio where
  num : Nat
  den : Nat

namespace Ratio

def le (a b : Ratio) : Bool := a.num * b.den ≤ b.num * a.den

def lt (a b : Ratio) : Bool := a.num * b.den < b.num * a.den

/-- `m * 2 ^ e`. -/
def ofScaled (m : Nat) (e : Int) : Ratio :=
  if e < 0 then ⟨m, 1 <<< (-e).toNat⟩ else ⟨m <<< e.toNat, 1⟩

/-- `c * 10 ^ k`. -/
def ofDecimal (c : Nat) (k : Int) : Ratio :=
  if k < 0 then ⟨c, Nat.pow 10 (-k).toNat⟩ else ⟨c * Nat.pow 10 k.toNat, 1⟩

/-- The quotient by `10 ^ k`, rounded down. -/
def divTen (r : Ratio) (k : Int) : Nat :=
  if k < 0 then r.num * Nat.pow 10 (-k).toNat / r.den else r.num / (r.den * Nat.pow 10 k.toNat)

/-- The distance between two ratios. -/
def distance (a b : Ratio) : Ratio :=
  let x := a.num * b.den
  let y := b.num * a.den
  ⟨(x - y) + (y - x), a.den * b.den⟩

end Ratio

/-- The interval of the numbers that round to one double.  Its ends belong to it
when the mantissa is even, because a tie goes to the even neighbour. -/
structure Interval where
  low : Ratio
  high : Ratio
  closed : Bool

def Interval.contains (i : Interval) (r : Ratio) : Bool :=
  if i.closed then i.low.le r && r.le i.high else i.low.lt r && r.lt i.high

/-- The interval around `m * 2 ^ e`.  Below a power of two the doubles lie twice
as close, save at the bottom of the range. -/
def interval (m : Nat) (e : Int) : Interval :=
  let narrow := m == 1 <<< 52 && e > -1074
  { low := Ratio.ofScaled (if narrow then 4 * m - 1 else 4 * m - 2) (e - 2)
    high := Ratio.ofScaled (4 * m + 2) (e - 2)
    closed := m % 2 == 0 }

/-- The number of decimal digits before the point of a ratio; zero or less when
the ratio is below one tenth.  An estimate from the binary length is off by at
most one or two places, so a few candidates are tried upwards. -/
def order (v : Ratio) : Int :=
  let binary : Int := (v.num.log2 : Int) - v.den.log2
  let estimate := binary * 30103 / 100000
  ((List.range 5).find? fun (i : Nat) => v.lt (Ratio.ofDecimal 1 (estimate - 1 + i))).elim
    (estimate + 4) fun (i : Nat) => estimate - 1 + (i : Int)

/-- Which neighbour wins when both are equally near. -/
inductive Tie
  | up
  | even

/-- The better neighbour of `v` on the grid of the multiples of `10 ^ k`, if one
of them lies in the interval. -/
def onGrid (tie : Tie) (i : Interval) (v : Ratio) (k : Int) : Option Decimal :=
  let below := v.divTen k
  let above := below + 1
  let low := Ratio.ofDecimal below k
  let high := Ratio.ofDecimal above k
  let hitLow := below ≠ 0 && i.contains low
  let hitHigh := i.contains high
  if hitLow && hitHigh then
    let down := v.distance low
    let up := v.distance high
    if down.lt up then some ⟨below, k⟩
    else if up.lt down then some ⟨above, k⟩
    else match tie with
      | .up => some ⟨above, k⟩
      | .even => some ⟨if below % 2 = 0 then below else above, k⟩
  else if hitLow then some ⟨below, k⟩
  else if hitHigh then some ⟨above, k⟩
  else none

end Shortest

open Shortest in
/-- The shortest decimal that reads back as `m * 2 ^ e`.  Seventeen digits are
always enough. -/
def shortest (tie : Tie) (m : Nat) (e : Int) : Decimal :=
  let v := Ratio.ofScaled m e
  let i := interval m e
  let top := order v
  match (List.range 17).findSome? fun (n : Nat) => onGrid tie i v (top - 1 - n) with
  | some d => Decimal.strip d.coefficient d.exponent
  | none => ⟨m, e⟩

end Number
end Workbook
