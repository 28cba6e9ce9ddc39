/-
What the parts of an evaluation ask of one another.  Formulas call functions of
scripts, scripts read names that are formulas, and both force lazy values that
evaluate further expressions; so none of the parts comes first.  Each part is
written against an engine that answers requests, and the engine is tied together
from the parts at the end.
-/
import Workbook.Native.Conversion

namespace Workbook

/-- How a statement of a script ends. -/
inductive Flow
  | normal
  | returned (v : Native)
  | broke
  | continued

/-- How points are moved: by an offset, or around the origin by an angle with this
sine and cosine. -/
inductive Motion
  | shift (dx dy : Value)
  | turn (sine cosine : Float)

/-- A request with the type of its answer. -/
inductive Request : Type → Type
  /-- The value of a lazy entry. -/
  | force (thunk : Nat) : Request Value
  /-- A value as text; strings are quoted inside lists and mappings. -/
  | text (v : Value) (nested : Bool) : Request String
  | json (v : Value) : Request Json
  | native (v : Value) : Request Native
  | equal (a b : Value) : Request Bool
  /-- A value with all points in it moved. -/
  | move (m : Motion) (v : Value) : Request Value
  /-- A formula with the names bound around it. -/
  | formula (evaluation : Nat) (locals : List (String × Value)) (e : Formula.Expr) : Request Value
  | callTyped (f : TypedFunction) (arguments : List Value) : Request Value
  | callNative (f : NativeFunction) (arguments : List Native) : Request Native
  /-- A function of a script, called in sight of its failures' places. -/
  | invoke (execution block : Nat) (f : Script.Function) (name : String)
      (arguments : List Native) : Request Native
  | statement (execution block : Nat) (s : Script.Stmt) : Request Flow
  | expression (execution block : Nat) (e : Script.Expr) : Request Native
  /-- The result of an expression of a session, if it has one. -/
  | evaluate (session : Nat) (key : String) : Request (Option Result)
  | folderValue (session : Nat) (key : String) : Request Value

/-- What answers requests. -/
structure Engine where
  ask : {α : Type} → Request α → Run α

namespace Engine

variable (engine : Engine)

/-- The value of an entry. -/
def read : Slot → Run Value
  | .ready v => return v
  | .lazy t => engine.ask (.force t)

/-- The value under a key of a mapping, in any spelling. -/
def readKey? (entries : Entries) (key : String) : Run (Option Value) :=
  match Entries.find? entries key with
  | some slot => some <$> engine.read slot
  | none => return none

/-- The entries of a mapping with their values. -/
def readAll : Entries → Run (List (String × Value))
  | [] => return []
  | (k, slot) :: rest => do
    let v ← engine.read slot
    return (k, v) :: (← readAll rest)

/-- Calls a function of either language with values of formulas. -/
def call (f : Callable) (arguments : List Value) : Run Value :=
  match f with
  | .typed f => engine.ask (.callTyped f arguments)
  | .native f => do
    let arguments ← arguments.mapM fun v => engine.ask (.native v)
    Run.toValue (← engine.ask (.callNative f arguments))

/-- Calls a function of formulas with native values. -/
def callBridged (f : TypedFunction) (arguments : List Native) : Run Native := do
  let arguments ← arguments.mapM Run.toValue
  engine.ask (.native (← engine.ask (.callTyped f arguments)))

/-- Calls a function of either language with native values. -/
def callNatively (f : Callable) (arguments : List Native) : Run Native :=
  match f with
  | .native f => engine.ask (.callNative f arguments)
  | .typed f => engine.callBridged f arguments

end Engine
end Workbook
