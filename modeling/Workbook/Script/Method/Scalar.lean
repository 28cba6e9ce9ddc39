/-
What the methods of strings, numbers and dates yield.
-/
import Workbook.Script.Library
import Workbook.Script.Method
import Workbook.Text.Search

namespace Workbook
namespace Script

/-- A position that an argument designates in a sequence: a negative one counts from
the end, and one outside is moved to the nearest end. -/
def bound (s : Store) (v : Native) (length standard : Nat) : Nat :=
  match v with
  | .undefined => standard
  | v =>
    let n := Number.clamped (-UInt64.size) UInt64.size (v.toNumber s)
    if n < 0 then (length + n).toNat else min n.toNat length

/-- The text of an argument; none if it is missing. -/
def text? (s : Store) (arguments : List Native) (i : Nat) : Option String :=
  match argument arguments i with
  | .undefined => none
  | v => some (v.text s)

/-- The text of an argument; empty if it is missing. -/
def text (s : Store) (arguments : List Native) (i : Nat) : String :=
  (text? s arguments i).getD ""

/-! ## Strings -/

/-- The longest string that a method builds, in characters. -/
def maxStringLength : Nat := 0x1fffffe8

/-- The failure of a string that would get too long. -/
def invalidStringLength : Cause :=
  .runtime "invalid string length"

/-- As many characters as asked for, from a text that is repeated. -/
def cycled (fill : List Char) (n : Nat) : List Char :=
  ((List.replicate (n / fill.length + 1) fill).flatten).take n

/-- What fills a text up to a length. -/
def padding (s : Store) (t : String) (arguments : List Native) : Except Cause String :=
  let target := (argument arguments 0).toNumber s
  let fill := (text? s arguments 1).getD " "
  if !(Number.ofInt t.length < target) || fill.isEmpty then .ok ""
  else if Number.ofInt maxStringLength < target then .error invalidStringLength
  else
    let n := (Number.clamped 0 UInt64.size target).toNat
    .ok (String.ofList (cycled fill.toList (n - t.length)))

/-- A text many times. -/
def repeated (s : Store) (t : String) (arguments : List Native) : Except Cause String :=
  let count := (argument arguments 0).toNumber s
  if !(0 ≤ count) || count.isInf then
    .error (.runtime ("invalid repeat count: " ++ Number.text count))
  else if t.isEmpty then .ok ""
  else
    let n := (Number.clamped 0 (UInt64.size - 1) count).toNat
    if maxStringLength < n * t.length then .error invalidStringLength
    else .ok ("".intercalate (List.replicate n t))

/-- A bound of a part that may be given from either end. -/
def partBound (s : Store) (v : Native) (length standard : Nat) : Nat :=
  match v with
  | .undefined => standard
  | v => (Number.clamped 0 length (v.toNumber s)).toNat

/-- The characters from one position up to another. -/
def part (cs : List Char) (start stop : Nat) : Native :=
  .string (String.ofList ((cs.drop start).take (stop - start)))

/-- The parts between separators; the whole if there is no separator. -/
def splitParts (s : Store) (cs : List Char) (arguments : List Native) : List Native :=
  let limit := match argument arguments 1 with
    | .undefined => cs.length + 1
    | v => (Number.clamped 0 (UInt64.size - 1) (v.toNumber s)).toNat
  let parts := match text? s arguments 0 with
    | none => [cs]
    | some separator => Text.split separator.toList cs
  (parts.take limit).map fun p => .string (String.ofList p)

/-- The value of a method of a string. -/
def applyStringMethod (t : String) (m : StringMethod) (arguments : List Native) :
    Run Native := do
  let s ← get
  let cs := t.toList
  let string (cs : List Char) : Run Native := return .string (String.ofList cs)
  match m with
  | .toUpperCase => return .string (Text.upper t)
  | .toLowerCase => return .string (Text.lower t)
  | .trim => string (Text.trim cs)
  | .trimStart => string (Text.trimStart cs)
  | .trimEnd => string (Text.trimEnd cs)
  | .toString => return .string t
  | .split => Run.newArray (splitParts s cs arguments).toArray
  | .slice =>
    return part cs (bound s (argument arguments 0) cs.length 0)
      (bound s (argument arguments 1) cs.length cs.length)
  | .substring =>
    let a := partBound s (argument arguments 0) cs.length 0
    let b := partBound s (argument arguments 1) cs.length cs.length
    return part cs (min a b) (max a b)
  | .charAt =>
    let x := (argument arguments 0).toNumber s
    let i := (Number.clamped 0 (UInt64.size - 1) x).toNat
    if 0 ≤ x then return part cs i (i + 1) else return .string ""
  | .includes => return .boolean (Text.contains (text s arguments 0).toList cs)
  | .startsWith => return .boolean ((text s arguments 0).toList.isPrefixOf cs)
  | .endsWith => return .boolean (Text.endsIn (text s arguments 0).toList cs)
  | .indexOf =>
    return match Text.find? (text s arguments 0).toList cs with
      | some i => .ofNat i
      | none => .number (-1)
  | .replace =>
    string (Text.replaceFirst (text s arguments 0).toList (text s arguments 1).toList cs)
  | .replaceAll =>
    string (Text.replaceAll (text s arguments 0).toList (text s arguments 1).toList cs)
  | .repeated => return .string (← Run.ofExcept (repeated s t arguments))
  | .padStart => return .string ((← Run.ofExcept (padding s t arguments)) ++ t)
  | .padEnd => return .string (t ++ (← Run.ofExcept (padding s t arguments)))
  | .concat => return .string (t ++ "".intercalate (arguments.map (·.text s)))

/-! ## Numbers -/

/-- A number with as many places after the point as asked for. -/
def toFixed (s : Store) (x : Float) (places : Native) : Except Cause String :=
  let digits := match places with
    | .undefined => 0
    | v => v.toNumber s
  if 0 ≤ digits && digits ≤ 100 then
    match Number.exact x with
    | .finite negative m e => .ok (Number.fixed (Number.clamped 0 100 digits).toNat negative m e)
    | _ => .ok (Number.text x)
  else .error (.runtime "toFixed() digits must be between 0 and 100")

/-- An integer that doubles hold exactly in another base; other numbers in base ten. -/
def inBase (base : Nat) (x : Float) : String :=
  match Number.exact x with
  | .finite negative m e =>
    let n := Number.Exact.whole m e
    if base = 10 ∨ !Number.Exact.isWhole m e ∨ Number.exactBound < n then Number.text x
    else
      let sign := if negative && n ≠ 0 then ['-'] else []
      String.ofList (sign ++ Number.inBase base n)
  | _ => Number.text x

/-- A number as text in the base that is asked for. -/
def numberText (s : Store) (x : Float) (base : Native) : Except Cause String :=
  match base with
  | .undefined => .ok (Number.text x)
  | v =>
    let b := v.toNumber s
    if Number.isIntegral b && 2 ≤ b && b ≤ 36 then
      .ok (inBase (Number.clamped 2 36 b).toNat x)
    else .error (.runtime "toString() radix must be between 2 and 36")

/-- The value of a method of a number. -/
def applyNumberMethod (s : Store) (x : Float) (m : NumberMethod) (arguments : List Native) :
    Except Cause Native :=
  match m with
  | .toFixed => (toFixed s x (argument arguments 0)).map .string
  | .toString => (numberText s x (argument arguments 0)).map .string

/-! ## Dates -/

/-- The value of a method of a date.  Months and days of the week count from zero. -/
def applyDateMethod (n : Int) (m : DateMethod) : Native :=
  let moment := Calendar.Moment.ofMilliseconds n
  match m with
  | .time => .number (Number.ofInt n)
  | .isoText => .string (Calendar.text n)
  | .text => .string (Calendar.offsetText n)
  | .year => .number (Number.ofInt moment.date.year)
  | .month => .ofNat (moment.date.month - 1)
  | .day => .ofNat moment.date.day
  | .weekday => .ofNat moment.weekday
  | .hours => .ofNat moment.hour
  | .minutes => .ofNat moment.minute
  | .seconds => .ofNat moment.second
  | .milliseconds => .ofNat moment.millisecond

end Script
end Workbook
