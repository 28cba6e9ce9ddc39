/-
How numbers are written.  A notation says when the point is written out and when
an exponent stands instead; the digits come from `shortest`, or from exact
rounding when the number of places is given.
-/
import Workbook.Number.Shortest

namespace Workbook
namespace Number

/-- The decimal digits of a natural number. -/
def digits (n : Nat) : List Char :=
  Nat.toDigits 10 n

/-- How the magnitude of a finite double is written. -/
structure Notation where
  /-- Which of two equally near shortest decimals is taken. -/
  tie : Shortest.Tie
  /-- The least number of digits before the point, zero or less for leading
  zeros after it, that is still written with a point. -/
  least : Option Int
  /-- The largest number of digits before the point that is still written with
  a point. -/
  most : Option Int
  /-- Whether an integer is followed by a point and a zero. -/
  pointed : Bool

namespace Notation

/-- The digits `ds` with the point after `before` of them. -/
def positional (pointed : Bool) (ds : List Char) (before : Int) : List Char :=
  let n : Int := ds.length
  if before ≤ 0 then '0' :: '.' :: (List.replicate (-before).toNat '0' ++ ds)
  else if before < n then ds.take before.toNat ++ '.' :: ds.drop before.toNat
  else ds ++ List.replicate (before - n).toNat '0' ++ (if pointed then ['.', '0'] else [])

/-- The digits `ds` with the point after the first, and an exponent with its
sign. -/
def scientific (ds : List Char) (exponent : Int) : List Char :=
  let mantissa := match ds with
    | d :: [] => [d]
    | d :: rest => d :: '.' :: rest
    | [] => []
  mantissa ++ 'e' :: (if exponent < 0 then '-' else '+') :: digits exponent.natAbs

/-- A decimal in this notation. -/
def layout (f : Notation) (d : Decimal) : List Char :=
  let ds := digits d.coefficient
  let before : Int := ds.length + d.exponent
  if f.least.all (· ≤ before) && f.most.all (before ≤ ·) then
    positional f.pointed ds before
  else scientific ds (before - 1)

/-- A finite double in this notation, the sign in front. -/
def finite (f : Notation) (negative : Bool) (m : Nat) (e : Int) : String :=
  let sign := if negative then ['-'] else []
  let body :=
    if m = 0 then (if f.pointed then ['0', '.', '0'] else ['0'])
    else f.layout (shortest f.tie m e)
  String.ofList (sign ++ body)

end Notation

/-- Shortest digits with the point always written out, as numeric literals and
long or fractional numbers are shown. -/
def plain : Notation := ⟨.up, none, none, false⟩

/-- Shortest digits as JSON text has them: a point from `1e-5` up to `1e16`, an
exponent outside, and a fraction even on integers. -/
def json : Notation := ⟨.even, some (-4), some 16, true⟩

/-- A numeric literal as a diagnostic names it: every sign is kept. -/
def literalText (x : Float) : String :=
  match exact x with
  | .nan => "NaN"
  | .infinite negative => if negative then "-inf" else "inf"
  | .finite negative m e => plain.finite negative m e

/-- A number as both languages print it.  An integer below `10 ^ 21` is written
exactly, digit by digit, and zero has no sign. -/
def text (x : Float) : String :=
  match exact x with
  | .nan => "NaN"
  | .infinite negative => if negative then "-Infinity" else "Infinity"
  | .finite negative m e =>
    if Exact.isWhole m e && Exact.whole m e < Nat.pow 10 21 then
      let sign := if negative && m ≠ 0 then ['-'] else []
      String.ofList (sign ++ digits (Exact.whole m e))
    else plain.finite negative m e

/-- `num / den` rounded to the nearest integer, ties to even. -/
def roundDiv (num den : Nat) : Nat :=
  let q := num / den
  let r := num % den
  if 2 * r < den then q
  else if den < 2 * r then q + 1
  else q + q % 2

/-- A finite double with a given number of places after the point, rounded
exactly.  The sign is kept even when all digits are zero. -/
def fixed (places : Nat) (negative : Bool) (m : Nat) (e : Int) : String :=
  let v := Shortest.Ratio.ofScaled m e
  let ds := digits (roundDiv (v.num * Nat.pow 10 places) v.den)
  let padded := List.replicate (places + 1 - ds.length) '0' ++ ds
  let before := padded.length - places
  let sign := if negative then ['-'] else []
  let point := if places = 0 then [] else ['.']
  String.ofList (sign ++ padded.take before ++ point ++ padded.drop before)

/-- The digit `d`, lower case letters after nine. -/
def digitChar (d : Nat) : Char :=
  if d < 10 then Char.ofNat (48 + d) else Char.ofNat (87 + d)

/-- The digits of `n` in a base of at least two, the last one first. -/
def digitsReversed (base n : Nat) : List Char :=
  if _h : 2 ≤ base ∧ n ≠ 0 then digitChar (n % base) :: digitsReversed base (n / base) else []
termination_by n
decreasing_by exact Nat.div_lt_self (by omega) (by omega)

/-- The digits of `n` in another base. -/
def inBase (base n : Nat) : List Char :=
  if n = 0 then ['0'] else (digitsReversed base n).reverse

/-- A number in base sixteen with leading zeros up to a width. -/
def hex (width n : Nat) : String :=
  let ds := inBase 16 n
  String.ofList (List.replicate (width - ds.length) '0' ++ ds)

/-- The bits of a double in base sixteen.  All that denote nothing are written alike. -/
def bitsText (x : Float) : String :=
  if x.isNaN then "nan" else hex 16 x.toBits.toNat

end Number
end Workbook
