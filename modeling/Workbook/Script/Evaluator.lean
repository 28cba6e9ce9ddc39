/-
The values of the expressions of scripts.
-/
import Workbook.Script.Method.Array
import Workbook.Script.Operator
import Workbook.Script.Scope

namespace Workbook
namespace Script

/-- What can be assigned to: what a name means, or a property. -/
inductive Target
  | name (s : String)
  | property (v : Native) (key : String)

/-- Whether the left operand alone decides. -/
def LogicalOp.decides (op : LogicalOp) (v : Native) : Bool :=
  match op with
  | .and => !v.isTruthy
  | .or => v.isTruthy
  | .coalesce => !v.isNullish

/-- How a message names what is called. -/
def Expr.calleeText : Expr → String
  | .name _ s => s
  | _ => "expression"

end Script

namespace Engine

open Script

variable (engine : Engine)

/-! ## Parts of expressions -/

/-- A function of a script.  One without a name of its own is called after what it is
bound to. -/
def newFunction (run block : Nat) (f : Function) (bound : Option String) : Run Native :=
  let name := ((f.name.map Name.text).or bound).getD "anonymous"
  Run.newNative (.script run block f name)

/-- The value of an expression that is bound to a name. -/
def boundValue (run block : Nat) (name : String) (e : Expr) : Run Native :=
  match e with
  | .function f => newFunction run block f (some name)
  | e => engine.ask (.expression run block e)

/-- The texts of the pieces of a template. -/
def templateTexts (eval : Expr → Run Native) : List (Piece Expr) → Run (List String)
  | [] => return []
  | .text s :: rest => return s :: (← templateTexts eval rest)
  | .hole e :: rest => do
    let t ← Run.textOf (← eval e)
    return t :: (← templateTexts eval rest)

/-- The values of items and arguments. -/
def itemValues (eval : Expr → Run Native) : List (Item Expr) → Run (List Native)
  | [] => return []
  | .one e :: rest => do
    let v ← eval e
    return v :: (← itemValues eval rest)
  | .spread e :: rest => do
    let v ← eval e
    let vs ← Run.ofExcept (v.walk (← get))
    return vs ++ (← itemValues eval rest)

/-- The fields of an object, added to `out`. -/
def objectFields (run block : Nat) (out : Fields) : List (Entry Expr) → Run Fields
  | [] => return out
  | .field k e :: rest => do
    let v ← engine.boundValue run block k.text e
    objectFields run block (Keyed.put k.text v out) rest
  | .spread e :: rest => do
    let v ← engine.ask (.expression run block e)
    let added := v.properties (← get)
    objectFields run block (Keyed.putAll added out) rest

/-- The value of a call. -/
def callExpression (eval : Expr → Run Native) (callee : Expr) (arguments : List (Item Expr)) :
    Run Native := do
  match callee with
  | .member _ object k =>
    let receiver ← eval object
    let arguments ← itemValues eval arguments
    engine.callMethod receiver k.text arguments
  | .index _ object k =>
    let receiver ← eval object
    let key ← Run.textOf (← eval k)
    let arguments ← itemValues eval arguments
    engine.callMethod receiver key arguments
  | callee =>
    let f ← eval callee
    let arguments ← itemValues eval arguments
    engine.callValue f arguments callee.calleeText

/-! ## Operators with one operand -/

/-- The name of an operand's type, which a name without a meaning has too. -/
def typeOfOperand (eval : Expr → Run Native) (run block : Nat) (operand : Expr) : Run Native := do
  match operand with
  | .name _ s => if !(← Run.isDefined run block s) then return .string "undefined"
  | _ => pure ()
  return .string (← eval operand).typeOf

/-- Deletes what an operand stands for.  Declared names stay. -/
def deleteOperand (eval : Expr → Run Native) (block : Nat) (operand : Expr) : Run Native := do
  match operand with
  | .name _ s =>
    if ((← get).valueOf? block s).isSome then return .boolean false
    else Run.fail (.readOnly s)
  | .member _ object k =>
    Run.deleteProperty (← eval object) k.text
    return .boolean true
  | .index _ object k =>
    let v ← eval object
    Run.deleteProperty v (← Run.textOf (← eval k))
    return .boolean true
  | operand =>
    let _ ← eval operand
    return .boolean true

/-- An operator applied to its operand. -/
def unaryExpression (eval : Expr → Run Native) (run block : Nat) (op : UnaryOp) (operand : Expr) :
    Run Native := do
  match op with
  | .typeof => typeOfOperand eval run block operand
  | .delete => deleteOperand eval block operand
  | .neg =>
    let v ← eval operand
    return v.negate (← get)
  | .plus =>
    let v ← eval operand
    Run.ofExcept (v.plus (← get))
  | .not => return .boolean (!(← eval operand).isTruthy)

/-! ## Assignment -/

/-- What the left side of an assignment stands for. -/
def target (eval : Expr → Run Native) (e : Expr) : Run Target := do
  match e with
  | .name _ s => return .name s
  | .member _ object k => return .property (← eval object) k.text
  | .index _ object k =>
    let v ← eval object
    return .property v (← Run.textOf (← eval k))
  | _ => Run.fail (.runtime "invalid assignment target")

/-- The value that is there. -/
def readTarget (run block : Nat) : Target → Run Native
  | .name s => engine.nameInScript run block s
  | .property v key => Run.property v key

/-- Puts a value there. -/
def writeTarget (block : Nat) (t : Target) (v : Native) : Run Unit :=
  match t with
  | .name s => Run.assign block s v
  | .property w key => Run.setProperty w key v

/-- The value of an assignment, which is the one assigned. -/
def assignment (eval : Expr → Run Native) (run block : Nat) (op : AssignOp) (left right : Expr) :
    Run Native := do
  let t ← target eval left
  let v ← match op.binary?, t with
    | none, .name s => engine.boundValue run block s right
    | none, .property .. => eval right
    | some op, t => do
      let old ← engine.readTarget run block t
      Run.binary op old (← eval right)
  writeTarget block t v
  return v

/-- The value of an increment or decrement. -/
def update (eval : Expr → Run Native) (run block : Nat) (increment first : Bool) (e : Expr) :
    Run Native := do
  let t ← target eval e
  let v ← engine.readTarget run block t
  let (old, one) := v.counted (← get)
  let new ← Run.binary (if increment then .add else .sub) old one
  writeTarget block t new
  return if first then new else old

/-! ## Expressions -/

/-- The value of an expression in a block of an execution. -/
def expression (run block : Nat) (e : Expr) : Run Native := do
  let eval (e : Expr) : Run Native := engine.ask (.expression run block e)
  match e with
  | .undefined _ => return .undefined
  | .null _ => return .null
  | .boolean _ b => return .boolean b
  | .number _ x => return .number x
  | .string _ s => return .string s
  | .template _ pieces => return .string ("".intercalate (← templateTexts eval pieces))
  | .array _ items => Run.newArray (← itemValues eval items).toArray
  | .object _ entries => Run.newObject (← engine.objectFields run block [] entries)
  | .name _ s => engine.nameInScript run block s
  | .member _ object k => Run.property (← eval object) k.text
  | .index _ object k =>
    let v ← eval object
    Run.property v (← Run.textOf (← eval k))
  | .call _ callee arguments => engine.callExpression eval callee arguments
  | .unary _ op operand => unaryExpression eval run block op operand
  | .update _ increment first t => engine.update eval run block increment first t
  | .binary _ op left right =>
    let a ← eval left
    Run.binary op a (← eval right)
  | .logical _ op left right =>
    let v ← eval left
    if op.decides v then return v else eval right
  | .conditional _ c yes no => if (← eval c).isTruthy then eval yes else eval no
  | .assign _ op left right => engine.assignment eval run block op left right
  | .function f => newFunction run block f none

end Engine
end Workbook
