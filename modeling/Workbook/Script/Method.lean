/-
The methods that arrays, strings, numbers and dates have, with their names.
-/

namespace Workbook
namespace Script

/-- The methods of arrays. -/
inductive ArrayMethod
  | push | pop | shift | unshift
  | map | filter | forEach | find | findIndex | some | every | reduce
  | slice | concat | join | indexOf | includes
  | reverse | sort
  deriving DecidableEq, Repr

namespace ArrayMethod

def all : List (String × ArrayMethod) :=
  [("push", push), ("pop", pop), ("shift", shift), ("unshift", unshift), ("map", map),
    ("filter", filter), ("forEach", forEach), ("find", find), ("findIndex", findIndex),
    ("some", some), ("every", every), ("reduce", reduce), ("slice", slice), ("concat", concat),
    ("join", join), ("indexOf", indexOf), ("includes", includes), ("reverse", reverse),
    ("sort", sort)]

def ofName? (s : String) : Option ArrayMethod :=
  all.lookup s

end ArrayMethod

/-- The methods of strings. -/
inductive StringMethod
  | toUpperCase | toLowerCase | trim | trimStart | trimEnd | toString
  | split | slice | substring | charAt
  | includes | startsWith | endsWith | indexOf
  | replace | replaceAll | repeated | padStart | padEnd | concat
  deriving DecidableEq, Repr

namespace StringMethod

def all : List (String × StringMethod) :=
  [("toUpperCase", toUpperCase), ("toLowerCase", toLowerCase), ("trim", trim),
    ("trimStart", trimStart), ("trimEnd", trimEnd), ("toString", toString), ("split", split),
    ("slice", slice), ("substring", substring), ("charAt", charAt), ("includes", includes),
    ("startsWith", startsWith), ("endsWith", endsWith), ("indexOf", indexOf),
    ("replace", replace), ("replaceAll", replaceAll), ("repeat", repeated),
    ("padStart", padStart), ("padEnd", padEnd), ("concat", concat)]

def ofName? (s : String) : Option StringMethod :=
  all.lookup s

end StringMethod

/-- The methods of numbers. -/
inductive NumberMethod
  | toFixed | toString
  deriving DecidableEq, Repr

namespace NumberMethod

def all : List (String × NumberMethod) :=
  [("toFixed", toFixed), ("toString", toString)]

def ofName? (s : String) : Option NumberMethod :=
  all.lookup s

end NumberMethod

/-- The methods of dates. -/
inductive DateMethod
  | time | isoText | text
  | year | month | day | weekday | hours | minutes | seconds | milliseconds
  deriving DecidableEq, Repr

namespace DateMethod

def all : List (String × DateMethod) :=
  [("getTime", time), ("valueOf", time), ("toISOString", isoText), ("toJSON", isoText),
    ("toString", text), ("getFullYear", year), ("getUTCFullYear", year), ("getMonth", month),
    ("getUTCMonth", month), ("getDate", day), ("getUTCDate", day), ("getDay", weekday),
    ("getUTCDay", weekday), ("getHours", hours), ("getUTCHours", hours),
    ("getMinutes", minutes), ("getUTCMinutes", minutes), ("getSeconds", seconds),
    ("getUTCSeconds", seconds), ("getMilliseconds", milliseconds),
    ("getUTCMilliseconds", milliseconds)]

def ofName? (s : String) : Option DateMethod :=
  all.lookup s

end DateMethod
end Script
end Workbook
