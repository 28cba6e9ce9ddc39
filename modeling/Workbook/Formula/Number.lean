/-
The arithmetic and the order of numbers in formulas.  Integers are exact, however
long they get; a result that 64 bits hold is an integer of 64 bits again.
-/
import Workbook.Value

namespace Workbook
namespace Formula

/-- The operators of arithmetic. -/
inductive Arithmetic
  | add | sub | mul | div | mod
  deriving DecidableEq, Repr

namespace Arithmetic

def symbol : Arithmetic → String
  | .add => "+"
  | .sub => "-"
  | .mul => "*"
  | .div => "/"
  | .mod => "%"

end Arithmetic

/-- What division by zero fails with. -/
def divisionByZero : Cause :=
  .arithmetic "division by zero"

/-- Arithmetic of doubles.  A result that is not finite is a failure. -/
def floatArithmetic (op : Arithmetic) (x y : Float) : Except Cause Value :=
  if (op = .div ∨ op = .mod) ∧ y == 0 then .error divisionByZero
  else
    let result := match op with
      | .add => x + y
      | .sub => x - y
      | .mul => x * y
      | .div => x / y
      | .mod => Number.remainder x y
    if result.isFinite then .ok (.float result)
    else .error (.arithmetic ("'" ++ op.symbol ++ "' produced a non-finite result"))

/-- Arithmetic of integers of any length.  A quotient that is not an integer is a double; a
remainder has the sign of the dividend. -/
def intArithmetic (op : Arithmetic) (m n : Int) : Except Cause Value :=
  match op with
  | .add => .ok (.ofInt (m + n))
  | .sub => .ok (.ofInt (m - n))
  | .mul => .ok (.ofInt (m * n))
  | .div =>
    if n = 0 then .error divisionByZero
    else if Int.tmod m n = 0 then .ok (.ofInt (Int.tdiv m n))
    else floatArithmetic .div (Number.ofInt m) (Number.ofInt n)
  | .mod => if n = 0 then .error divisionByZero else .ok (.ofInt (Int.tmod m n))

/-- The word that an operation on two words comes to.  What a word does not hold is done again with
integers of any length. -/
def ofWord (op : Arithmetic) (a b : Int64) : Option Int64 → Except Cause Value
  | some n => .ok (.integer n)
  | none => intArithmetic op a.toInt b.toInt

/-- Arithmetic of integers of 64 bits. -/
def wordArithmetic (op : Arithmetic) (a b : Int64) : Except Cause Value :=
  match op with
  | .add => ofWord .add a b (Number.checkedAdd a b)
  | .sub => ofWord .sub a b (Number.checkedSub a b)
  | .mul => ofWord .mul a b (Number.checkedMul a b)
  | .div =>
    if b = 0 then .error divisionByZero
    else
      match Number.checkedRem a b with
      | some r =>
        if r = 0 then ofWord .div a b (Number.checkedDiv a b)
        else floatArithmetic .div (Number.ofInt a.toInt) (Number.ofInt b.toInt)
      | none => ofWord .div a b none
  | .mod => if b = 0 then .error divisionByZero else ofWord .mod a b (Number.checkedRem a b)

/-- Arithmetic of two values, which must be numbers. -/
def arithmetic (op : Arithmetic) (a b : Value) : Except Cause Value :=
  match a, b with
  | .integer m, .integer n => wordArithmetic op m n
  | a, b =>
    match a.int?, b.int? with
    | some m, some n => intArithmetic op m n
    | _, _ =>
      match a.float?, b.float? with
      | some x, some y => floatArithmetic op x y
      | _, _ =>
        .error (.typeMismatch
          ("cannot apply '" ++ op.symbol ++ "' to " ++ a.typeName ++ " and " ++ b.typeName))

/-- The negative of a number. -/
def negate (v : Value) : Except Cause Value :=
  match v with
  | .integer n =>
    match Number.checkedNeg n with
    | some m => .ok (.integer m)
    | none => .ok (.ofInt (-n.toInt))
  | .big n => .ok (.ofInt (-n))
  | .float x => .ok (.float (-x))
  | v => .error (.typeMismatch ("cannot negate " ++ v.typeName))

/-- The order of two strings, by code points. -/
def compareStrings (a b : String) : Ordering :=
  if a = b then .eq else if a < b then .lt else .gt

/-- The order of two values; none if they cannot be compared. -/
def compare? (a b : Value) : Option Ordering :=
  match a, b with
  | .string s, .string t => some (compareStrings s t)
  | .date m, .date n => some (compare m n)
  | a, b =>
    match a.int?, b.int? with
    | some m, some n => some (compare m n)
    | _, _ =>
      match a.float?, b.float? with
      | some x, some y => Number.compare? x y
      | _, _ => none

end Formula
end Workbook
