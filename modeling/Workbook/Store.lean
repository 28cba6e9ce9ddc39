/-
Everything that evaluations share and change: arrays and objects, the blocks of
running scripts, lazy values, evaluations with their call depths, and sessions
with what they have computed.  Each kind has its own numbered places.
-/
import Workbook.Keyed
import Workbook.Outcome
import Workbook.Outline
import Workbook.Script.Cache
import Workbook.Settings
import Workbook.Value.Mapping

namespace Workbook

/-! ## Containers -/

/-- An array or object of the store.  `version` counts its modifications; a
frozen one is never modified again. -/
structure Container (α : Type) where
  content : α
  version : Nat
  frozen : Bool

namespace Container

def ofContent {α : Type} (a : α) : Container α :=
  ⟨a, 0, false⟩

end Container

/-- The fields of an object in the order they were added. -/
abbrev Fields := List (String × Native)

/-! ## Scripts -/

structure Variable where
  value : Native
  constant : Bool

/-- The variables of a block of a script, and the block around it. -/
structure Block where
  bindings : List (String × Variable)
  parent : Option Nat

/-- Where names that an evaluation does not declare come from: fixed values, some
of which cannot be read, or a folder of a session. -/
inductive Scope (α : Type)
  | fixed (bindings : List (String × Except Fault α))
  | folder (session : Nat) (key : String)

/-- An evaluation of a formula, which the lambdas it makes belong to. -/
structure Evaluation where
  scope : Scope Value
  /-- How many of its calls are active. -/
  depth : Nat
  maxDepth : Nat

/-- An execution of a script, which the functions it makes belong to. -/
structure Execution where
  scope : Scope Native
  /-- The names of a folder that were read, with their values. -/
  known : List (String × Native)
  /-- How many of its calls are active. -/
  depth : Nat
  maxDepth : Nat

/-! ## Lazy values -/

/-- A computation that is put off. -/
inductive Work
  | value (v : Value)
  | expression (session : Nat) (key : String)
  | folder (session : Nat) (key : String)

/-- A lazy value, before and after it was first read. -/
inductive Thunk
  | pending (w : Work)
  | done (v : Value)

/-! ## Sessions -/

/-- What a session has done so far. -/
structure Stats where
  executions : Nat
  cacheHits : Nat
  circularDetections : Nat
  deriving DecidableEq, Repr

/-- The evaluation of a workbook at a time, with everything that it has computed.
Keys are those of the outline. -/
structure Session where
  /-- Whether anything still holds on to the session. -/
  alive : Bool
  tree : Tree
  outline : Outline
  settings : Settings
  /-- Names bound ahead of all that are built in, in lower case. -/
  overrides : List (String × Value)
  library : Value
  math : Value
  time : Float
  results : List (String × Result)
  /-- The expressions that are being executed. -/
  inFlight : List String
  folderValues : List (String × Value)
  /-- What relative imports have found. -/
  imports : List (String × Value)
  scripts : Script.Cache
  /-- Where modules are loaded. -/
  modules : Nat
  stats : Stats

/-- The modules that the sessions of one workbook import. -/
structure Modules where
  alive : Bool
  registry : List (String × Tree)
  loaded : List (String × Nat)
  loading : List String

/-! ## The store -/

structure Store where
  arrays : Array (Container (Array Native))
  objects : Array (Container Fields)
  blocks : Array Block
  thunks : Array Thunk
  evaluations : Array Evaluation
  executions : Array Execution
  sessions : Array Session
  modules : Array Modules
  /-- What scripts wrote to the console. -/
  console : Array (Script.Severity × String)
  /-- The next identity to give out. -/
  fresh : Nat

namespace Store

def empty : Store :=
  ⟨#[], #[], #[], #[], #[], #[], #[], #[], #[], 0⟩

end Store

/-! ## Runs -/

/-- Why a run stopped early.  A run that is exhausted was given too little fuel;
it has no result. -/
inductive Stop
  | failed (f : Failure)
  | exhausted

/-- A computation on the store. -/
abbrev Run := EStateM Stop Store

namespace Run

/-- Fails with a cause. -/
def fail {α : Type} (c : Cause) : Run α :=
  throw (.failed (.ofCause c))

def fault {α : Type} (f : Fault) : Run α :=
  fail (.fault f)

def mismatch {α : Type} (what : String) : Run α :=
  fail (.typeMismatch what)

def exhausted {α : Type} : Run α :=
  throw .exhausted

/-- The outcome of a computation that may fail. -/
def ofExcept {α : Type} : Except Cause α → Run α
  | .ok a => return a
  | .error c => fail c

def ofFaulty {α : Type} : Except Fault α → Run α
  | .ok a => return a
  | .error f => fault f

/-- Runs `x`, then `after`, whether `x` fails or not. -/
def ensuring {α : Type} (x : Run α) (after : Run Unit) : Run α := fun s =>
  match x s with
  | .ok a s => (do after; return a : Run α) s
  | .error e s => (do after; throw e : Run α) s

/-- Runs `x` and changes the failure it ends with. -/
def mapFailure {α : Type} (f : Failure → Failure) (x : Run α) : Run α := fun s =>
  match x s with
  | .ok a s => .ok a s
  | .error (.failed e) s => .error (.failed (f e)) s
  | .error .exhausted s => .error .exhausted s

/-- Runs `x` and yields its failure if it fails. -/
def outcome {α : Type} (x : Run α) : Run (Except Failure α) := fun s =>
  match x s with
  | .ok a s => .ok (.ok a) s
  | .error (.failed e) s => .ok (.error e) s
  | .error .exhausted s => .error .exhausted s

/-- Runs `x` behind a call: the caller sees a fault only. -/
def behindCall {α : Type} (x : Run α) : Run α :=
  mapFailure (fun e => .ofCause (.fault e.cause.toFault)) x

/-- A new identity. -/
def freshId : Run Nat :=
  modifyGet fun s => (s.fresh, { s with fresh := s.fresh + 1 })

end Run
end Workbook
