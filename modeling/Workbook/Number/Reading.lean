/-
Numbers read from text.  A decimal goes to the nearest double, ties to even;
nothing is rounded on the way there.
-/
import Workbook.Number.Exact
import Workbook.Text.Trim

namespace Workbook
namespace Number

/-- The value of a digit in a base of up to 36, either case. -/
def digitValue? (base : Nat) (c : Char) : Option Nat :=
  let n := c.toNat
  let d? :=
    if 48 ≤ n ∧ n ≤ 57 then some (n - 48)
    else if 97 ≤ n ∧ n ≤ 122 then some (n - 87)
    else if 65 ≤ n ∧ n ≤ 90 then some (n - 55)
    else none
  d?.filter (· < base)

/-- The natural number that a list of ASCII digits writes. -/
def ofDigits (ds : List Char) : Nat :=
  ds.foldl (fun n c => 10 * n + (c.toNat - 48)) 0

/-- The double nearest to `coefficient * 10 ^ exponent`.  Numbers far outside
the range are settled by their length alone, so that no huge power is built. -/
def ofDecimal (negative : Bool) (coefficient : Nat) (exponent : Int) : Float :=
  let magnitude : Float :=
    if coefficient = 0 then 0
    else
      let places : Int := coefficient.log2 * 30103 / 100000
      if 400 < places + exponent then infinity
      else if places + exponent < -400 then 0
      else Float.ofScientific coefficient (exponent < 0) exponent.natAbs
  if negative then -magnitude else magnitude

/-- An optional sign: whether it was a minus, and the rest. -/
def takeSign : List Char → Bool × List Char
  | '+' :: rest => (false, rest)
  | '-' :: rest => (true, rest)
  | rest => (false, rest)

/-- The digits at the front and what follows them. -/
def takeDigits (cs : List Char) : List Char × List Char :=
  (cs.takeWhile Char.isDigit, cs.dropWhile Char.isDigit)

/-- The exponent that must make up the whole text: nothing, or `e`, an optional
sign and at least one digit. -/
def readExponent? : List Char → Option Int
  | [] => some 0
  | c :: rest =>
    if c = 'e' ∨ c = 'E' then
      let (negative, rest) := takeSign rest
      let (ds, rest) := takeDigits rest
      if ds.isEmpty || !rest.isEmpty then none
      else some (if negative then -(ofDigits ds : Int) else ofDigits ds)
    else none

/-- An unsigned decimal: digits with an optional point among or around them, at
least one digit in all, and an optional exponent. -/
def readMagnitude? (negative : Bool) (cs : List Char) : Option Float :=
  let (whole, rest) := takeDigits cs
  let (fraction, rest) := match rest with
    | '.' :: rest => takeDigits rest
    | _ => ([], rest)
  if whole.isEmpty && fraction.isEmpty then none
  else (readExponent? rest).map fun e =>
    ofDecimal negative (ofDigits (whole ++ fraction)) (e - fraction.length)

/-- A signed decimal, or a name of a number that is not finite in any case. -/
def readDecimal? (cs : List Char) : Option Float :=
  let (negative, rest) := takeSign cs
  let word := String.ofList (rest.map Char.toLower)
  if word = "inf" ∨ word = "infinity" then
    some (if negative then negativeInfinity else infinity)
  else if word = "nan" then some nan
  else readMagnitude? negative rest

/-- Numeric conversion of a text: blanks around it do not count, the empty text
is zero, and what is no number gives the number that denotes nothing. -/
def ofText (s : String) : Float :=
  let cs := Text.trim s.toList
  if cs.isEmpty then 0 else (readDecimal? cs).getD nan

/-- The number that the digits at the front write in a base, as doubles add it
up; none if there are none. -/
def leadingInteger? (base : Nat) (cs : List Char) : Option Float :=
  let add (acc : Option Float) (d : Nat) : Option Float :=
    some (acc.getD 0 * Float.ofNat base + Float.ofNat d)
  ((cs.map (digitValue? base)).takeWhile Option.isSome).reduceOption.foldl add none

/-- The integer at the front of a text, in a base.  Base sixteen allows the mark
`0x`. -/
def leadingInteger (base : Nat) (s : String) : Float :=
  if base < 2 ∨ 36 < base then nan
  else
    let (negative, rest) := takeSign (Text.trimStart s.toList)
    let rest := match rest with
      | '0' :: x :: tail => if base = 16 ∧ (x = 'x' ∨ x = 'X') then tail else rest
      | _ => rest
    match leadingInteger? base rest with
    | some n => (if negative then -1 else 1) * n
    | none => nan

/-- The longest prefix that is a decimal, digits first. -/
def decimalPrefix (cs : List Char) : List Char :=
  let (whole, rest) := takeDigits cs
  let (body, rest) := match rest with
    | '.' :: rest =>
      let (fraction, rest) := takeDigits rest
      (whole ++ '.' :: fraction, rest)
    | _ => (whole, rest)
  match rest with
  | e :: rest =>
    if e = 'e' ∨ e = 'E' then
      let (mark, rest) := match rest with
        | '+' :: rest => (['+'], rest)
        | '-' :: rest => (['-'], rest)
        | _ => ([], rest)
      let (ds, _) := takeDigits rest
      if ds.isEmpty then body else body ++ e :: mark ++ ds
    else body
  | [] => body

/-- The decimal at the front of a text. -/
def leadingDecimal (s : String) : Float :=
  let cs := Text.trimStart s.toList
  let (negative, rest) := takeSign cs
  if "Infinity".toList.isPrefixOf rest then
    if negative then negativeInfinity else infinity
  else (readMagnitude? negative (decimalPrefix rest)).getD nan

/-- The natural number that hexadecimal digits write. -/
def ofHex (ds : List Char) : Nat :=
  ds.foldl (fun n c => 16 * n + (digitValue? 16 c).getD 0) 0

/-- The double whose bits are written in base sixteen. -/
def ofBitsText (s : String) : Float :=
  if s = "nan" then nan else Float.ofBits (UInt64.ofNat (ofHex s.toList))

end Number
end Workbook
