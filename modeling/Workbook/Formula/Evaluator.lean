/-
The values of formulas.
-/
import Workbook.Session.Lookup

namespace Workbook
namespace Engine

open Formula

variable (engine : Engine)

/-! ## Conditions and operators -/

/-- What counts as true for an operator.  Null is false, and other values than truth
values are refused. -/
def condition (operator : String) : Value → Run Bool
  | .boolean b => return b
  | .null => return false
  | .error kind message _ => Run.fail (failedRead operator kind message)
  | v => Run.mismatch ("'" ++ operator ++ "' expects a boolean, got " ++ v.typeName)

/-- A sum, or two texts joined.  A text takes the text of anything but a failed value
to its side. -/
def add (a b : Value) : Run Value := do
  match a, b with
  | .string s, .string t => return .string (s ++ t)
  | a, .error .. => Run.ofExcept (arithmetic .add a b)
  | .error .., b => Run.ofExcept (arithmetic .add a b)
  | .string s, b => return .string (s ++ (← engine.ask (.text b false)))
  | a, .string t => return .string ((← engine.ask (.text a false)) ++ t)
  | a, b => Run.ofExcept (arithmetic .add a b)

/-- A comparison of two values that have an order. -/
def compared (op : BinaryOp) (holds : Ordering → Bool) (a b : Value) : Run Value :=
  match compare? a b with
  | some o => return .boolean (holds o)
  | none =>
    Run.mismatch ("cannot compare " ++ a.typeName ++ " and " ++ b.typeName ++ " with '" ++
      op.symbol ++ "'")

/-- An operator applied to the values of both operands. -/
def applyBinary (op : BinaryOp) (a b : Value) : Run Value :=
  match op with
  | .add => engine.add a b
  | .sub => Run.ofExcept (arithmetic .sub a b)
  | .mul => Run.ofExcept (arithmetic .mul a b)
  | .div => Run.ofExcept (arithmetic .div a b)
  | .mod => Run.ofExcept (arithmetic .mod a b)
  | .eq => return .boolean (← engine.ask (.equal a b))
  | .notEq => return .boolean (!(← engine.ask (.equal a b)))
  | .less => compared op (· == .lt) a b
  | .greater => compared op (· == .gt) a b
  | .lessEq => compared op (· != .gt) a b
  | .greaterEq => compared op (· != .lt) a b
  | .and | .or => Run.mismatch ("'" ++ op.symbol ++ "' is not an arithmetic operator")

/-- How a message names what is called. -/
def calleeText : Expr → String
  | .name _ s => "'" ++ s ++ "'"
  | .member _ _ k => "'" ++ k.text ++ "'"
  | _ => "expression"

/-! ## Parts of expressions -/

/-- The texts of the pieces of a string. -/
def piecesText (eval : Expr → Run Value) : List (Piece Expr) → Run (List String)
  | [] => return []
  | .text s :: rest => return s :: (← piecesText eval rest)
  | .hole e :: rest => do
    let t ← engine.ask (.text (← eval e) false)
    return t :: (← piecesText eval rest)

/-- The items of a list. -/
def listItems (eval : Expr → Run Value) : List (Item Expr) → Run (List Value)
  | [] => return []
  | .one e :: rest => do
    let v ← eval e
    return v :: (← listItems eval rest)
  | .spread e :: rest => do
    let items ← match ← eval e with
      | .list items _ => pure items
      | .null => pure []
      | v => Run.mismatch ("spread in a list requires a list, got " ++ v.typeName)
    return items ++ (← listItems eval rest)

/-- The entries of a record, added to `out`.  A later entry takes the place of an
earlier one with its key. -/
def recordEntries (eval : Expr → Run Value) : Entries → List (Entry Expr) → Run Entries
  | out, [] => return out
  | out, .field k e :: rest => do
    recordEntries eval (Entries.set k.text (.ready (← eval e)) out) rest
  | out, .spread e :: rest => do
    let added ← match ← eval e with
      | .mapping entries _ => engine.readAll entries
      | .null => pure []
      | v => Run.mismatch ("spread in a record requires a mapping, got " ++ v.typeName)
    recordEntries eval (added.foldl (fun out (k, v) => Entries.set k (.ready v) out) out) rest

/-- The value of a call. -/
def applyCallee (callee : Expr) (f : Value) (arguments : List Value) : Run Value :=
  match f with
  | .function f => engine.call f arguments
  | .null => Run.mismatch (calleeText callee ++ " is null and cannot be called")
  | v => Run.mismatch (calleeText callee ++ " is a " ++ v.typeName ++ ", not a function")

/-- The value of a name. -/
def nameValue (evaluation : Nat) (locals : List (String × Value)) (name : String) : Run Value := do
  match locals.lookup name with
  | some v => return v
  | none =>
    match (← get).evaluations[evaluation]? with
    | none => Run.fail (.undefinedName name)
    | some e =>
      match ← engine.lookUp e.scope name with
      | some v => return v
      | none => Run.fail (.undefinedName name)

/-! ## Expressions -/

/-- The value of an expression with the names bound around it. -/
def formula (evaluation : Nat) (locals : List (String × Value)) (e : Expr) : Run Value := do
  let eval (e : Expr) : Run Value := engine.ask (.formula evaluation locals e)
  match e with
  | .null _ => return .null
  | .boolean _ b => return .boolean b
  | .integer _ n => return .integer n
  | .big _ digits => return .ofInt (Number.ofDigits digits.toList)
  | .float _ x => return .float x
  | .string _ s => return .string s
  | .interpolation _ pieces => return .string ("".intercalate (← engine.piecesText eval pieces))
  | .list _ items => return .ofItems (← listItems eval items)
  | .record _ entries => return .ofEntries (← engine.recordEntries eval [] entries)
  | .name _ s => engine.nameValue evaluation locals s
  | .member _ object k => engine.member (← eval object) k.text
  | .index _ object k =>
    let v ← eval object
    engine.item v (← eval k)
  | .call _ callee arguments =>
    let f ← eval callee
    engine.applyCallee callee f (← arguments.mapM eval)
  | .binary _ .and left right =>
    if ← condition "and" (← eval left) then
      return .boolean (← condition "and" (← eval right))
    return .boolean false
  | .binary _ .or left right =>
    if ← condition "or" (← eval left) then return .boolean true
    return .boolean (← condition "or" (← eval right))
  | .binary _ op left right =>
    let a ← eval left
    engine.applyBinary op a (← eval right)
  | .unary _ .neg operand => Run.ofExcept (negate (← eval operand))
  | .unary _ .not operand => return .boolean (!(← condition "not" (← eval operand)))
  | .coalesce _ left right =>
    let v ← eval left
    if v.isNull then eval right else return v
  | .branch _ c yes no => if ← condition "if" (← eval c) then eval yes else eval no
  | .binding _ k value body =>
    let v ← eval value
    engine.ask (.formula evaluation ((k.text, v) :: locals) body)
  | .lambda _ parameters body =>
    Run.newTyped (.lambda evaluation locals (parameters.map Name.text) body)
  | .parenthesized _ inner => eval inner

/-! ## Calls -/

/-- Runs a call that belongs to an evaluation, unless too many are active. -/
def callWithin (evaluation : Nat) (x : Run Value) : Run Value := do
  let change (f : Nat → Nat) : Run Unit := modify fun s =>
    { s with evaluations := s.evaluations.modify evaluation fun e => { e with depth := f e.depth } }
  if ((← get).evaluations[evaluation]?).any fun e => e.maxDepth ≤ e.depth then
    Run.fail .tooManyCalls
  change (· + 1)
  Run.ensuring x (change (· - 1))

/-- The parameters of a lambda with their arguments, the last one first.  Missing
arguments are null. -/
def bindParameters (parameters : List String) (arguments : List Value)
    (locals : List (String × Value)) : List (String × Value) :=
  ((List.range parameters.length).zip parameters).foldl
    (fun locals (i, p) => (p, arguments[i]?.getD .null) :: locals) locals

/-- The value of a lambda for arguments. -/
def callLambda (evaluation : Nat) (locals : List (String × Value)) (parameters : List String)
    (body : Expr) (arguments : List Value) : Run Value :=
  callWithin evaluation
    (engine.ask (.formula evaluation (bindParameters parameters arguments locals) body))

end Engine
end Workbook
