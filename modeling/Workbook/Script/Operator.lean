/-
The operators of scripts.
-/
import Workbook.Formula.Number
import Workbook.Native.Text

namespace Workbook
namespace Native

/-- The form that the operators see: containers, functions and dates count as their
text. -/
def primitive (s : Store) (v : Native) : Native :=
  match v with
  | .array _ | .object _ | .function _ | .date _ => .string (v.text s)
  | v => v

/-! ## Arithmetic -/

/-- The largest exponent of a power of integers. -/
def maxExponent : Int := 0xffffffff

/-- A power of integers. -/
def bigPower (a b : Int) : Except Cause Native :=
  if b < 0 then .error (.arithmetic "exponent must be non-negative")
  else if maxExponent < b then .error (.arithmetic "exponent is too large")
  else .ok (.big (Number.power a b.toNat))

/-- Arithmetic of integers of any length.  Quotients are cut off toward zero. -/
def bigArithmetic (op : Script.BinaryOp) (a b : Int) : Except Cause Native :=
  match op with
  | .sub => .ok (.big (a - b))
  | .mul => .ok (.big (a * b))
  | .div => if b = 0 then .error Formula.divisionByZero else .ok (.big (Int.tdiv a b))
  | .mod => if b = 0 then .error Formula.divisionByZero else .ok (.big (Int.tmod a b))
  | .pow => bigPower a b
  | _ => .ok (.big (a + b))

/-- Arithmetic of doubles. -/
def floatArithmetic (op : Script.BinaryOp) (x y : Float) : Float :=
  match op with
  | .sub => x - y
  | .mul => x * y
  | .div => x / y
  | .mod => Number.remainder x y
  | .pow => Float.pow x y
  | _ => x + y

/-- Arithmetic.  Integers of any length stay among themselves; all other values count
as doubles. -/
def arithmetic (s : Store) (op : Script.BinaryOp) (a b : Native) : Except Cause Native :=
  match a, b with
  | .big m, .big n => bigArithmetic op m n
  | .big _, _ | _, .big _ =>
    .error (.typeMismatch "cannot mix BigInt and other types, use explicit conversions")
  | a, b => .ok (.number (floatArithmetic op (a.toNumber s) (b.toNumber s)))

/-- A sum, or two texts joined if either operand is one. -/
def add (s : Store) (a b : Native) : Except Cause Native :=
  match a.primitive s, b.primitive s with
  | .string t, b => .ok (.string (t ++ b.text s))
  | a, .string t => .ok (.string (a.text s ++ t))
  | a, b => arithmetic s .add a b

/-! ## Order -/

/-- The order of two values: of strings by code points, of all others as numbers.  What
denotes no number has no order. -/
def order? (s : Store) (a b : Native) : Option Ordering :=
  match a.primitive s, b.primitive s with
  | .string t, .string u => some (Formula.compareStrings t u)
  | .big m, .big n => some (compare m n)
  | a, b => Number.compare? (a.toNumber s) (b.toNumber s)

/-- Whether the order of two values is there and passes a test. -/
def ordered (s : Store) (test : Ordering → Bool) (a b : Native) : Native :=
  .boolean ((order? s a b).any test)

/-! ## All operators -/

/-- An operator applied to two values. -/
def binary (s : Store) (op : Script.BinaryOp) (a b : Native) : Except Cause Native :=
  match op with
  | .add => add s a b
  | .sub | .mul | .div | .mod | .pow => arithmetic s op a b
  | .eq => .ok (.boolean (a.looseEquals b))
  | .notEq => .ok (.boolean (!a.looseEquals b))
  | .strictEq => .ok (.boolean (a.strictEquals b))
  | .strictNotEq => .ok (.boolean (!a.strictEquals b))
  | .less => .ok (ordered s (· == .lt) a b)
  | .greater => .ok (ordered s (· == .gt) a b)
  | .lessEq => .ok (ordered s (· != .gt) a b)
  | .greaterEq => .ok (ordered s (· != .lt) a b)

/-- The negative of a value. -/
def negate (s : Store) : Native → Native
  | .big n => .big (-n)
  | v => .number (-(v.toNumber s))

/-- A value as a double, which integers of any length refuse to become. -/
def plus (s : Store) : Native → Except Cause Native
  | .big _ => .error (.typeMismatch "cannot convert a BigInt value to a number")
  | v => .ok (.number (v.toNumber s))

/-- What an increment starts from, and its step. -/
def counted (s : Store) : Native → Native × Native
  | .big n => (.big n, .big 1)
  | v => (.number (v.toNumber s), .number 1)

end Native

namespace Run

/-- An operator applied to two values. -/
def binary (op : Script.BinaryOp) (a b : Native) : Run Native := do
  ofExcept (a.binary (← get) op b)

end Run
end Workbook
