/-
The functions and methods that formulas find without defining them.
-/

namespace Workbook
namespace Formula

/-- The functions of the mapping `math`. -/
inductive MathFunction
  | abs | floor | ceil | round | trunc | min | max | clamp | pow
  | sqrt | sin | cos | tan | asin | acos | atan | exp | log
  | atan2 | hypot
  deriving DecidableEq, Repr

namespace MathFunction

def name : MathFunction → String
  | .abs => "abs"
  | .floor => "floor"
  | .ceil => "ceil"
  | .round => "round"
  | .trunc => "trunc"
  | .min => "min"
  | .max => "max"
  | .clamp => "clamp"
  | .pow => "pow"
  | .sqrt => "sqrt"
  | .sin => "sin"
  | .cos => "cos"
  | .tan => "tan"
  | .asin => "asin"
  | .acos => "acos"
  | .atan => "atan"
  | .exp => "exp"
  | .log => "log"
  | .atan2 => "atan2"
  | .hypot => "hypot"

/-- In the order of the mapping. -/
def all : List MathFunction :=
  [.abs, .floor, .ceil, .round, .trunc, .min, .max, .clamp, .pow,
    .sqrt, .sin, .cos, .tan, .asin, .acos, .atan, .exp, .log, .atan2, .hypot]

end MathFunction

/-- The functions of the mapping `lib`. -/
inductive LibraryFunction
  | textMetrics | translate | rotate
  deriving DecidableEq, Repr

namespace LibraryFunction

def name : LibraryFunction → String
  | .textMetrics => "textMetrics"
  | .translate => "translate"
  | .rotate => "rotate"

/-- In the order of the mapping. -/
def all : List LibraryFunction :=
  [.textMetrics, .translate, .rotate]

end LibraryFunction

/-- The methods of lists. -/
inductive ListMethod
  | map | filter | reduce | concat | slice | join | contains
  deriving DecidableEq, Repr

namespace ListMethod

def name : ListMethod → String
  | .map => "map"
  | .filter => "filter"
  | .reduce => "reduce"
  | .concat => "concat"
  | .slice => "slice"
  | .join => "join"
  | .contains => "contains"

def ofName? (s : String) : Option ListMethod :=
  [map, filter, reduce, concat, slice, join, contains].find? (·.name == s)

end ListMethod

/-- The methods of strings. -/
inductive StringMethod
  | upper | lower | trim | split | contains
  deriving DecidableEq, Repr

namespace StringMethod

def name : StringMethod → String
  | .upper => "upper"
  | .lower => "lower"
  | .trim => "trim"
  | .split => "split"
  | .contains => "contains"

def ofName? (s : String) : Option StringMethod :=
  [upper, lower, trim, split, contains].find? (·.name == s)

end StringMethod

/-- The methods of mappings. -/
inductive MappingMethod
  | keys | values | has
  deriving DecidableEq, Repr

namespace MappingMethod

def name : MappingMethod → String
  | .keys => "keys"
  | .values => "values"
  | .has => "has"

def ofName? (s : String) : Option MappingMethod :=
  [keys, values, has].find? (·.name == s)

end MappingMethod
end Formula
end Workbook
