/-
What the evaluation of one expression comes to: a value in the forms of both
languages, or a failure with the details of what went wrong.
-/
import Workbook.Source.Excerpt
import Workbook.Value

namespace Workbook

/-- Whose fault a failure is: the text of a formula, what an expression computes,
or the engine, which found a cycle or missed a module. -/
inductive FailureKind
  | parser
  | runtime
  | engine
  deriving DecidableEq, Repr

namespace FailureKind

def name : FailureKind → String
  | .parser => "parser"
  | .runtime => "runtime"
  | .engine => "engine"

/-- The kind of a failed computation. -/
def ofEngine (isEngine : Bool) : FailureKind :=
  if isEngine then .engine else .runtime

end FailureKind

/-- One thing that went wrong. -/
structure Detail where
  kind : FailureKind
  message : String
  place : Option (Location × Excerpt)
  stack : Option String
  deriving DecidableEq, Repr

namespace Detail

def plain (kind : FailureKind) (message : String) : Detail :=
  ⟨kind, message, none, none⟩

end Detail

/-- The outcome of an evaluation.  A failure has a first detail. -/
inductive Outcome
  | value (native : Native) (typed : Value)
  | failure (first : Detail) (more : List Detail)

namespace Outcome

def failed (kind : FailureKind) (message : String) : Outcome :=
  failure (.plain kind message) []

def ofFault (f : Fault) : Outcome :=
  failed (.ofEngine f.isEngine) f.message

def ofCause (c : Cause) : Outcome :=
  failed (.ofEngine c.isEngine) c.message

/-- A failed script, with the calls it was in. -/
def ofFailure (f : Failure) : Outcome :=
  failure ⟨.ofEngine f.cause.isEngine, f.cause.message, none, f.trace⟩ []

/-- The outcome as one value of formulas. -/
def toValue : Outcome → Value
  | value _ typed => typed
  | failure first _ => .error first.kind.name first.message none

end Outcome

/-- An outcome with an identity, which tells it from one computed anew. -/
structure Result where
  id : Nat
  outcome : Outcome

end Workbook
