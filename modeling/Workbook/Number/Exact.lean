/-
The exact number that a double stands for, and the operations on doubles that
need it: integer parts, rounding to integers and the remainder.  All of them
work on natural numbers, so nothing is lost on the way.
-/

namespace Workbook
namespace Number

/-- What a double denotes.  A finite one is `mantissa * 2 ^ exponent`, negated
if `negative`; the two zeros differ in the sign only. -/
inductive Exact
  | nan
  | infinite (negative : Bool)
  | finite (negative : Bool) (mantissa : Nat) (exponent : Int)
  deriving DecidableEq, Repr

def exact (x : Float) : Exact :=
  let bits := x.toBits
  let negative := bits >>> 63 == 1
  let field := ((bits >>> 52) &&& 0x7ff).toNat
  let fraction := (bits &&& 0xfffffffffffff).toNat
  if field = 2047 then (if fraction = 0 then .infinite negative else .nan)
  else if field = 0 then .finite negative fraction (-1074)
  else .finite negative ((1 <<< 52) + fraction) (field - 1075)

def nan : Float := Float.ofBits 0x7ff8000000000000

def infinity : Float := Float.ofBits 0x7ff0000000000000

def negativeInfinity : Float := Float.ofBits 0xfff0000000000000

def negativeZero : Float := Float.ofBits 0x8000000000000000

/-- The double nearest to `m * 2 ^ e`, ties to even, with the given sign. -/
def ofScaled (negative : Bool) (m : Nat) (e : Int) : Float :=
  let sign : Float.Model.UnpackedFloat.Sign := if negative then .negative else .positive
  .ofModel (.pack (.round .binary64 sign m e))

/-- The double nearest to an integer, where zero keeps the sign it is given. -/
def ofSignedNat (negative : Bool) (n : Nat) : Float :=
  if negative then -(Float.ofNat n) else Float.ofNat n

/-- The double nearest to an integer, ties to even. -/
def ofInt (n : Int) : Float :=
  ofScaled (n < 0) n.natAbs 0

/-- Whether the sign bit is set; also true of the negative zero. -/
def isNegative (x : Float) : Bool :=
  x.toBits >>> 63 == 1

namespace Exact

/-- The integer part of `m * 2 ^ e`. -/
def whole (m : Nat) (e : Int) : Nat :=
  if e < 0 then m >>> (-e).toNat else m <<< e.toNat

/-- Whether `m * 2 ^ e` has no fraction. -/
def isWhole (m : Nat) (e : Int) : Bool :=
  if e < 0 then m % (1 <<< (-e).toNat) == 0 else true

/-- `m * 2 ^ e` rounded to an integer, a half away from zero. -/
def rounded (m : Nat) (e : Int) : Nat :=
  if e < 0 then (m + (1 <<< ((-e).toNat - 1))) >>> (-e).toNat else m <<< e.toNat

end Exact

/-- The integer part toward zero; a number that is not finite has none. -/
def truncated? (x : Float) : Option Int :=
  match exact x with
  | .finite negative m e =>
    some (if negative then -(Exact.whole m e : Int) else Exact.whole m e)
  | _ => none

/-- Whether the double is finite and has no fraction. -/
def isIntegral (x : Float) : Bool :=
  match exact x with
  | .finite _ m e => Exact.isWhole m e
  | _ => false

/-- The integer part toward zero, kept between two bounds.  A number that
denotes nothing counts as zero. -/
def clamped (lo hi : Int) (x : Float) : Int :=
  match exact x with
  | .nan => 0
  | .infinite negative => if negative then lo else hi
  | .finite negative m e =>
    let n : Int := if negative then -(Exact.whole m e : Int) else Exact.whole m e
    max lo (min hi n)

/-- Applies a rounding of magnitudes to a finite double; the others stay. -/
def roundWith (f : Bool → Nat → Int → Nat) (x : Float) : Float :=
  match exact x with
  | .finite negative m e => ofSignedNat negative (f negative m e)
  | _ => x

def trunc : Float → Float :=
  roundWith fun _ m e => Exact.whole m e

def floor : Float → Float :=
  roundWith fun negative m e =>
    if negative && !Exact.isWhole m e then Exact.whole m e + 1 else Exact.whole m e

def ceil : Float → Float :=
  roundWith fun negative m e =>
    if negative || Exact.isWhole m e then Exact.whole m e else Exact.whole m e + 1

/-- To the nearest integer, a half away from zero. -/
def round : Float → Float :=
  roundWith fun _ m e => Exact.rounded m e

/-- The remainder of the division toward zero.  It has the sign of the dividend
and is exact. -/
def remainder (x y : Float) : Float :=
  match exact x, exact y with
  | .finite negative m e, .finite _ m' e' =>
    if m' = 0 then nan
    else
      let low := min e e'
      let r := (m <<< (e - low).toNat) % (m' <<< (e' - low).toNat)
      if r = 0 then (if negative then negativeZero else 0) else ofScaled negative r low
  | .finite .., .infinite _ => x
  | _, _ => nan

/-- The square root of `num * 2 ^ e` rounded to the nearest double.  Sixty digits
more than needed are computed, and a last one says whether anything is left. -/
def sqrtScaled (num : Nat) (e : Int) : Float :=
  let shift := 2 * 130 + (if e % 2 = 0 then 0 else 1)
  let n := num <<< shift
  let root := n.sqrt
  let sticky := if root * root = n then 0 else 1
  ofScaled false (2 * root + sticky) ((e - shift) / 2 - 1)

/-- The length of the hypotenuse over two finite legs, correctly rounded. -/
def hypot (x y : Float) : Float :=
  match exact x, exact y with
  | .finite _ m e, .finite _ m' e' =>
    let low := min e e'
    let a := m <<< (e - low).toNat
    let b := m' <<< (e' - low).toNat
    sqrtScaled (a * a + b * b) (2 * low)
  | .infinite _, _ | _, .infinite _ => infinity
  | _, _ => nan

/-- The largest number whose cube is at most `n`, of those that agree with `r` above
their lowest `bits` bits. -/
def cubeRootFrom (n : Nat) : Nat → Nat → Nat
  | 0, r => r
  | bits + 1, r =>
    let next := r + (1 <<< bits)
    cubeRootFrom n bits (if next * next * next ≤ n then next else r)

/-- The largest number whose cube is at most `n`. -/
def cubeRoot (n : Nat) : Nat :=
  cubeRootFrom n (n.log2 / 3 + 1) 0

/-- The cube root, correctly rounded.  Sixty digits more than needed are computed, and a
last one says whether anything is left. -/
def cbrt (x : Float) : Float :=
  match exact x with
  | .finite negative m e =>
    if m = 0 then x
    else
      let shift := 3 * 60 + (Int.fmod e 3).toNat
      let n := m <<< shift
      let root := cubeRoot n
      let sticky := if root * root * root = n then 0 else 1
      ofScaled negative (2 * root + sticky) (Int.fdiv (e - shift) 3 - 1)
  | _ => x

/-- The order of two doubles; none if either denotes nothing. -/
def compare? (x y : Float) : Option Ordering :=
  if x < y then some .lt
  else if x == y then some .eq
  else if y < x then some .gt
  else none

end Number
end Workbook
