/-
Moments in time, as milliseconds since the beginning of 1970, and the proleptic
Gregorian calendar.  A year of the computation begins in March, so that the leap
day is its last one.
-/
import Workbook.Number.Notation

namespace Workbook
namespace Calendar

/-- A day of the calendar. -/
structure Day where
  year : Int
  month : Nat
  day : Nat
  deriving DecidableEq, Repr

/-- A moment as the calendar and the clock show it. -/
structure Moment where
  date : Day
  /-- Days since Sunday. -/
  weekday : Nat
  hour : Nat
  minute : Nat
  second : Nat
  millisecond : Nat
  deriving DecidableEq, Repr

def millisecondsPerDay : Nat := 86400000

/-- Days in the 400 years after which the calendar repeats. -/
def daysPerEra : Nat := 146097

/-- Days from the first of March of the year 0 to the beginning of 1970. -/
def daysBefore1970 : Nat := 719468

/-- The day that lies so many days after the beginning of 1970. -/
def Day.ofDays (days : Int) : Day :=
  let shifted := days + daysBefore1970
  let era := Int.fdiv shifted daysPerEra
  let dayOfEra := (Int.fmod shifted daysPerEra).toNat
  let yearOfEra :=
    (dayOfEra - dayOfEra / 1460 + dayOfEra / 36524 - dayOfEra / 146096) / 365
  let dayOfYear := dayOfEra - (365 * yearOfEra + yearOfEra / 4 - yearOfEra / 100)
  let march := (5 * dayOfYear + 2) / 153
  let month := if march < 10 then march + 3 else march - 9
  { year := yearOfEra + era * 400 + (if month ≤ 2 then 1 else 0)
    month := month
    day := dayOfYear - (153 * march + 2) / 5 + 1 }

/-- The moment so many milliseconds after the beginning of 1970. -/
def Moment.ofMilliseconds (n : Int) : Moment :=
  let days := Int.fdiv n millisecondsPerDay
  let rest := (Int.fmod n millisecondsPerDay).toNat
  { date := .ofDays days
    weekday := (Int.fmod (days + 4) 7).toNat
    hour := rest / 3600000
    minute := rest / 60000 % 60
    second := rest / 1000 % 60
    millisecond := rest % 1000 }

/-- The years that moments may lie in. -/
def firstYear : Int := -262143

def lastYear : Int := 262142

/-- Whether the moment lies in the years that the calendar covers. -/
def covers (n : Int) : Bool :=
  let year := (Moment.ofMilliseconds n).date.year
  firstYear ≤ year && year ≤ lastYear

/-- A number with leading zeros up to a width. -/
def padded (width n : Nat) : List Char :=
  let ds := Number.digits n
  List.replicate (width - ds.length) '0' ++ ds

/-- A year of four digits; one that needs more, or lies before the year 0, has a
sign. -/
def yearText (year : Int) : List Char :=
  if 0 ≤ year ∧ year ≤ 9999 then padded 4 year.natAbs
  else (if year < 0 then '-' else '+') :: padded 4 year.natAbs

/-- Date and time up to the seconds. -/
def Moment.seconds (m : Moment) : List Char :=
  yearText m.date.year ++ '-' :: padded 2 m.date.month ++ '-' :: padded 2 m.date.day ++
    'T' :: padded 2 m.hour ++ ':' :: padded 2 m.minute ++ ':' :: padded 2 m.second

/-- The moment with its milliseconds, marked as universal time. -/
def text (n : Int) : String :=
  let m := Moment.ofMilliseconds n
  String.ofList (m.seconds ++ '.' :: padded 3 m.millisecond ++ ['Z'])

/-- The moment with an offset; milliseconds only where there are some. -/
def offsetText (n : Int) : String :=
  let m := Moment.ofMilliseconds n
  let fraction := if m.millisecond = 0 then [] else '.' :: padded 3 m.millisecond
  String.ofList (m.seconds ++ fraction ++ "+00:00".toList)

end Calendar
end Workbook
