/-
The functions that scripts find without defining them.
-/

namespace Workbook
namespace Script

/-- The functions of the object `Math`. -/
inductive MathFunction
  | abs | floor | ceil | round | trunc | sign | sqrt | cbrt
  | sin | cos | tan | asin | acos | atan | exp | log | log2 | log10
  | atan2 | pow | hypot | min | max
  deriving DecidableEq, Repr

namespace MathFunction

def name : MathFunction → String
  | .abs => "abs"
  | .floor => "floor"
  | .ceil => "ceil"
  | .round => "round"
  | .trunc => "trunc"
  | .sign => "sign"
  | .sqrt => "sqrt"
  | .cbrt => "cbrt"
  | .sin => "sin"
  | .cos => "cos"
  | .tan => "tan"
  | .asin => "asin"
  | .acos => "acos"
  | .atan => "atan"
  | .exp => "exp"
  | .log => "log"
  | .log2 => "log2"
  | .log10 => "log10"
  | .atan2 => "atan2"
  | .pow => "pow"
  | .hypot => "hypot"
  | .min => "min"
  | .max => "max"

/-- In the order of the object. -/
def all : List MathFunction :=
  [.abs, .floor, .ceil, .round, .trunc, .sign, .sqrt, .cbrt,
    .sin, .cos, .tan, .asin, .acos, .atan, .exp, .log, .log2, .log10,
    .atan2, .pow, .hypot, .min, .max]

end MathFunction

/-- How grave a line of the console is. -/
inductive Severity
  | plain
  | warning
  | failure
  deriving DecidableEq, Repr

/-- The built-in functions, of all objects. -/
inductive Builtin
  | number | string | boolean | parseInt | parseFloat | isNaN | isFinite
  | math (f : MathFunction)
  | stringify | parseJson
  | keys | values | entries | assign
  | isArray | arrayFrom
  | fromTimestamp
  | console (severity : Severity)
  deriving DecidableEq, Repr

namespace Builtin

def name : Builtin → String
  | .number => "Number"
  | .string => "String"
  | .boolean => "Boolean"
  | .parseInt => "parseInt"
  | .parseFloat => "parseFloat"
  | .isNaN => "isNaN"
  | .isFinite => "isFinite"
  | .math f => "Math." ++ f.name
  | .stringify => "JSON.stringify"
  | .parseJson => "JSON.parse"
  | .keys => "Object.keys"
  | .values => "Object.values"
  | .entries => "Object.entries"
  | .assign => "Object.assign"
  | .isArray => "Array.isArray"
  | .arrayFrom => "Array.from"
  | .fromTimestamp => "Date.fromTimestamp"
  | .console .plain => "console.log"
  | .console .warning => "console.warn"
  | .console .failure => "console.error"

end Builtin
end Script
end Workbook
