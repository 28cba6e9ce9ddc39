/-
What can go wrong while values are converted, called and evaluated.  A fault is
all that a value carries across a call; a failure says more precisely what
happened inside an evaluation, and where.
-/

namespace Workbook

/-- A failure as callers of functions and conversions see it. -/
inductive Fault
  | cyclic
  | engine (message : String)
  | runtime (message : String)
  deriving DecidableEq, Repr

namespace Fault

def message : Fault → String
  | .cyclic => "cannot convert cyclic value"
  | .engine m => m
  | .runtime m => m

/-- Whether the engine itself failed, and not what it was asked to compute. -/
def isEngine : Fault → Bool
  | .cyclic => true
  | .engine _ => true
  | .runtime _ => false

end Fault

/-- Why an evaluation stopped. -/
inductive Cause
  | arithmetic (what : String)
  | nullAccess (key : String)
  | undefinedName (name : String)
  | typeMismatch (what : String)
  /-- A name was read whose own evaluation failed. -/
  | dependency (name message : String)
  | readOnly (name : String)
  | constantAssigned (name : String)
  | thrown (message : String)
  | tooManyCalls
  | engine (message : String)
  | fault (f : Fault)
  | runtime (message : String)
  deriving DecidableEq, Repr

namespace Cause

def message : Cause → String
  | .arithmetic what => "arithmetic error: " ++ what
  | .nullAccess key => "cannot read '" ++ key ++ "' of null"
  | .undefinedName name => "'" ++ name ++ "' is not defined"
  | .typeMismatch what => "type mismatch: " ++ what
  | .dependency name m => "error in dependency '" ++ name ++ "': " ++ m
  | .readOnly name => "cannot modify '" ++ name ++ "': engine bindings are read-only"
  | .constantAssigned name => "assignment to constant '" ++ name ++ "'"
  | .thrown m => "uncaught " ++ m
  | .tooManyCalls => "maximum call stack size exceeded"
  | .engine m => m
  | .fault f => f.message
  | .runtime m => m

/-- Whether the engine itself failed; this is kept through every expression that
depends on the failed one. -/
def isEngine : Cause → Bool
  | .engine _ => true
  | .fault f => f.isEngine
  | _ => false

/-- The failure as a caller sees it. -/
def toFault : Cause → Fault
  | .fault f => f
  | .engine m => .engine m
  | c => .runtime c.message

theorem message_toFault (c : Cause) : c.toFault.message = c.message := by
  cases c <;> rfl

theorem isEngine_toFault (c : Cause) : c.toFault.isEngine = c.isEngine := by
  cases c <;> rfl

end Cause

/-- A function that was being run when a script failed, and the place in it. -/
structure Frame where
  function : String
  line : Nat
  column : Nat
  deriving DecidableEq, Repr

namespace Frame

def text (f : Frame) : String :=
  "at " ++ f.function ++ " (" ++ toString f.line ++ ":" ++ toString f.column ++ ")"

end Frame

/-- A cause with the calls that it broke off, the innermost first.  `place` is
where the innermost call that is still to be left was. -/
structure Failure where
  cause : Cause
  stack : List Frame
  place : Option (Nat × Nat)
  deriving DecidableEq, Repr

namespace Failure

def ofCause (c : Cause) : Failure :=
  ⟨c, [], none⟩

/-- The most calls that are listed. -/
def maxFrames : Nat := 32

/-- Notes the place of the failure, unless a place further in is known. -/
def located (f : Failure) (line column : Nat) : Failure :=
  { f with place := f.place.or (some (line, column)) }

/-- Leaves the innermost call. -/
def left (f : Failure) (function : String) : Failure :=
  match f.place with
  | none => f
  | some (line, column) =>
    if maxFrames ≤ f.stack.length then { f with place := none }
    else { f with stack := f.stack ++ [⟨function, line, column⟩], place := none }

/-- The calls, one a line; none if there are none. -/
def trace (f : Failure) : Option String :=
  if f.stack.isEmpty then none else some ("\n".intercalate (f.stack.map Frame.text))

end Failure
end Workbook
