/-
The names that scripts find without declaring them.  Each reading of a name makes
its object or function anew.
-/
import Workbook.Store.Containers

namespace Workbook
namespace Script

/-- What such a name stands for. -/
inductive Global
  | number (x : Float)
  | function (b : Builtin)
  /-- An object with constants and, after them, functions. -/
  | object (constants : List (String × Float)) (functions : List (String × Builtin))

namespace Global

/-- The constants of `Math`, each to the nearest double. -/
def mathConstants : List (String × Float) :=
  [("PI", 3.14159265358979323846), ("E", 2.71828182845904523536),
    ("LN2", 0.693147180559945309417), ("LN10", 2.30258509299404568402),
    ("SQRT2", 1.41421356237309504880)]

/-- All names. -/
def all : List (String × Global) :=
  [("Math", .object mathConstants (MathFunction.all.map fun f => (f.name, .math f))),
    ("JSON", .object [] [("stringify", .stringify), ("parse", .parseJson)]),
    ("Object", .object []
      [("keys", .keys), ("values", .values), ("entries", .entries), ("assign", .assign)]),
    ("Array", .object [] [("isArray", .isArray), ("from", .arrayFrom)]),
    ("Date", .object [] [("fromTimestamp", .fromTimestamp)]),
    ("console", .object []
      [("log", .console .plain), ("warn", .console .warning), ("error", .console .failure)]),
    ("Number", .function .number), ("String", .function .string),
    ("Boolean", .function .boolean), ("parseInt", .function .parseInt),
    ("parseFloat", .function .parseFloat), ("isNaN", .function .isNaN),
    ("isFinite", .function .isFinite), ("NaN", .number Number.nan),
    ("Infinity", .number Number.infinity)]

/-- What a name stands for. -/
def ofName? (name : String) : Option Global :=
  all.lookup name

/-- Whether the name is one of them. -/
def isName (name : String) : Bool :=
  (ofName? name).isSome

end Global
end Script

namespace Run

/-- New functions as fields. -/
def newBuiltins : List (String × Script.Builtin) → Run Fields
  | [] => return []
  | (k, b) :: rest => do
    let f ← newNative (.builtin b)
    return (k, f) :: (← newBuiltins rest)

/-- What a global name stands for, made anew. -/
def newGlobal : Script.Global → Run Native
  | .number x => return .number x
  | .function b => newNative (.builtin b)
  | .object constants functions => do
    newObject (constants.map (fun (k, x) => (k, .number x)) ++ (← newBuiltins functions))

end Run
end Workbook
