/-
Sets of code points given by the points where membership changes.
-/

namespace Workbook
namespace Text

/-- A set of natural numbers as an ascending list of bounds: membership starts
at the first bound, stops at the second, starts again at the third, and so on. -/
structure Ranges where
  bounds : Array Nat

namespace Ranges

/-- How many of the bounds at positions `lo` to `hi` are at most `n`, counted
from the start of the list.  The bounds ascend, so halving the interval finds
the place. -/
def rank (bounds : Array Nat) (n lo hi : Nat) : Nat :=
  if h : lo < hi then
    let mid := (lo + hi) / 2
    if bounds.getD mid 0 ≤ n then rank bounds n (mid + 1) hi
    else rank bounds n lo mid
  else lo
termination_by hi - lo

/-- Whether `n` is a member: an odd number of bounds lies at or below it. -/
def contains (r : Ranges) (n : Nat) : Bool :=
  rank r.bounds n 0 r.bounds.size % 2 == 1

end Ranges
end Text
end Workbook
