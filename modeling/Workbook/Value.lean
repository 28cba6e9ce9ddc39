/-
The values of both languages.  Formulas compute with immutable values; scripts
with native ones, whose arrays and objects live in a store and are known by their
places there.  Functions of either language are values of both, so the types
refer to one another.

An identity is a number given out once.  Two functions are the same function
exactly if their identities agree, whatever they do.
-/
import Workbook.Fault
import Workbook.Formula
import Workbook.Formula.Builtin
import Workbook.Number.Reading
import Workbook.Number.Word
import Workbook.Script
import Workbook.Script.Builtin

namespace Workbook

/-- A byte string.  Its identity tells it apart from an equal one made
separately. -/
structure Bytes where
  id : Nat
  data : List UInt8
  deriving DecidableEq, Repr

/-- The container of the store that a value was converted from, and how often it
had been modified then. -/
structure Origin where
  container : Nat
  version : Nat
  deriving DecidableEq, Repr

/-- What a function of the surrounding program answers. -/
inductive Reply
  | fails (f : Fault)
  /-- The first argument, or nothing. -/
  | first
  /-- All arguments as a list. -/
  | all
  deriving DecidableEq, Repr

mutual

/-- A value as formulas see it. -/
inductive Value
  | null
  | boolean (b : Bool)
  | integer (n : Int64)
  | float (x : Float)
  /-- An integer that 64 bits do not hold. -/
  | big (n : Int)
  | string (s : String)
  | date (milliseconds : Int)
  | bytes (b : Bytes)
  | list (items : List Value) (origin : Option Origin)
  /-- Entries in order; no two keys are equal up to case. -/
  | mapping (entries : List (String × Slot)) (origin : Option Origin)
  | function (f : Callable)
  | error (kind message : String) (payload : Option Value)
  /-- A mark that is handed on and never computed. -/
  | signal (marker : String)

/-- The value of an entry, or the place of the computation that yields it. -/
inductive Slot
  | ready (v : Value)
  | lazy (thunk : Nat)

/-- A function of either language. -/
inductive Callable
  | typed (f : TypedFunction)
  | native (f : NativeFunction)

/-- A function that takes and returns values of formulas. -/
inductive TypedFunction
  | mk (id : Nat) (code : TypedCode)

/-- What such a function does. -/
inductive TypedCode
  /-- A lambda with the local names around it; `context` is the evaluation that
  made it. -/
  | lambda (context : Nat) (locals : List (String × Value)) (parameters : List String)
      (body : Formula.Expr)
  | math (f : Formula.MathFunction)
  | library (f : Formula.LibraryFunction)
  | listMethod (items : List Value) (m : Formula.ListMethod)
  | stringMethod (s : String) (m : Formula.StringMethod)
  | mappingMethod (entries : List (String × Slot)) (m : Formula.MappingMethod)
  /-- Reads modules, and paths relative to a folder. -/
  | importer (session : Nat) (folder : String)
  | host (name : String) (reply : Reply)

/-- A function that takes and returns native values. -/
inductive NativeFunction
  | mk (id : Nat) (code : NativeCode)

/-- What such a function does. -/
inductive NativeCode
  /-- A function of a script with the block around it; `run` is the execution
  that made it. -/
  | script (run block : Nat) (f : Script.Function) (name : String)
  | builtin (b : Script.Builtin)
  | host (name : String) (reply : Reply)
  /-- A function of formulas, called with converted values. -/
  | bridge (f : TypedFunction)

end

/-- A value as scripts see it. -/
inductive Native
  | undefined
  | null
  | boolean (b : Bool)
  | number (x : Float)
  | big (n : Int)
  | string (s : String)
  | date (milliseconds : Int)
  | bytes (b : Bytes)
  | array (place : Nat)
  | object (place : Nat)
  | function (f : NativeFunction)
  | marker (name : String)

/-! ## Functions -/

namespace TypedFunction

def id : TypedFunction → Nat
  | mk n _ => n

def code : TypedFunction → TypedCode
  | mk _ c => c

end TypedFunction

namespace TypedCode

def name : TypedCode → String
  | lambda .. => "lambda"
  | math f => "math." ++ f.name
  | library f => f.name
  | listMethod _ m => "list." ++ m.name
  | stringMethod _ m => "string." ++ m.name
  | mappingMethod _ m => "mapping." ++ m.name
  | importer .. => "import"
  | host n _ => n

end TypedCode

namespace NativeFunction

def id : NativeFunction → Nat
  | mk n _ => n

def code : NativeFunction → NativeCode
  | mk _ c => c

end NativeFunction

namespace NativeCode

def name : NativeCode → String
  | script _ _ _ n => n
  | builtin b => b.name
  | host n _ => n
  | bridge f => f.code.name

end NativeCode

namespace Callable

def name : Callable → String
  | typed f => f.code.name
  | native f => f.code.name

/-- Whether both are the same function. -/
def same : Callable → Callable → Bool
  | typed f, typed g => f.id == g.id
  | native f, native g => f.id == g.id
  | _, _ => false

end Callable

/-! ## Values of formulas -/

namespace Value

instance : Inhabited Value := ⟨null⟩

/-- An integer, in 64 bits if they hold it. -/
def ofInt (n : Int) : Value :=
  if Number.fitsWord n then integer (Int64.ofInt n) else big n

def typeName : Value → String
  | null => "null"
  | boolean _ => "boolean"
  | integer _ => "integer"
  | float _ => "float"
  | big _ => "bigint"
  | string _ => "string"
  | date _ => "datetime"
  | bytes _ => "bytes"
  | list .. => "list"
  | mapping .. => "mapping"
  | function _ => "function"
  | error .. => "error"
  | signal _ => "signal"

def isNull : Value → Bool
  | null => true
  | _ => false

/-- The exact integer of a value that has an integer tag. -/
def int? : Value → Option Int
  | integer n => some n.toInt
  | big n => some n
  | _ => none

/-- A number of any tag as a double. -/
def float? : Value → Option Float
  | float x => some x
  | v => v.int?.map Number.ofInt

end Value

/-! ## Native values -/

namespace Native

instance : Inhabited Native := ⟨undefined⟩

/-- The type as scripts name it. -/
def typeOf : Native → String
  | undefined => "undefined"
  | boolean _ => "boolean"
  | number _ => "number"
  | big _ => "bigint"
  | string _ => "string"
  | function _ => "function"
  | null | date _ | bytes _ | array _ | object _ | marker _ => "object"

def isNullish : Native → Bool
  | undefined | null => true
  | _ => false

/-- Whether a condition counts the value as true. -/
def isTruthy : Native → Bool
  | undefined | null => false
  | boolean b => b
  | number x => x != 0 && !x.isNaN
  | big n => n != 0
  | string s => !s.isEmpty
  | _ => true

/-- Equality without conversion.  Containers, byte strings and functions are
equal only to themselves. -/
def strictEquals : Native → Native → Bool
  | undefined, undefined | null, null => true
  | boolean a, boolean b => a == b
  | number a, number b => a == b
  | big a, big b => a == b
  | string a, string b => a == b
  | date a, date b => a == b
  | bytes a, bytes b => a.id == b.id
  | array a, array b => a == b
  | object a, object b => a == b
  | function f, function g => f.id == g.id
  | marker a, marker b => a == b
  | _, _ => false

/-- A truth value as a number; others stay. -/
def unboolean : Native → Native
  | boolean b => number (if b then 1 else 0)
  | v => v

/-- Equality of a number and a text by the number the text reads as, and of all
others as `strictEquals` has it. -/
def numericEquals : Native → Native → Bool
  | number a, string b | string b, number a => Number.ofText b == a
  | a, b => strictEquals a b

/-- Equality with conversion.  A truth value compared with anything else counts
as a number. -/
def looseEquals (a b : Native) : Bool :=
  if a.isNullish && b.isNullish then true
  else match a, b with
    | boolean _, boolean _ => a.strictEquals b
    | boolean _, _ | _, boolean _ => a.unboolean.numericEquals b.unboolean
    | _, _ => a.numericEquals b

end Native
end Workbook
