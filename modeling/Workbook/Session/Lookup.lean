/-
What names mean in the folders of a session.  A name is looked for in a folder, then
in each folder around it, then among the names bound at the root.  In one folder an
expression goes before a folder of the same name.
-/
import Workbook.Formula.Library
import Workbook.Formula.Member

namespace Workbook

/-! ## Folders -/

namespace Outline

/-- A folder and the folders around it, the innermost first; `fuel` bounds their
number. -/
def enclosing (o : Outline) : Nat → String → List String
  | 0, _ => []
  | fuel + 1, key =>
    key :: match (o.folder? key).bind Folder.parent with
      | some outer => o.enclosing fuel outer
      | none => []

/-- Something in a folder. -/
inductive Place
  | expression (key : String)
  | folder (key : String)
  deriving DecidableEq, Repr

/-- What has a name in a folder. -/
def placeIn? (o : Outline) (folder name : String) : Option Place :=
  let key := childKey folder name
  if (o.expression? key).isSome then some (.expression key)
  else if (o.folder? key).isSome then some (.folder key)
  else none

/-- What has a name in a folder or, failing that, in the nearest one around it. -/
def place? (o : Outline) (folder name : String) : Option Place :=
  (o.enclosing o.folders.length folder).findSome? fun f => o.placeIn? f name

end Outline

/-! ## The root -/

/-- The time as a value: an integer if it is one that doubles hold exactly. -/
def timeValue (seconds : Float) : Value :=
  match Number.truncated? seconds with
  | none => .null
  | some n =>
    if Number.isIntegral seconds ∧ n.natAbs ≤ Number.exactBound then .integer (Int64.ofInt n)
    else .float seconds

/-- What reading from a session that is gone fails with. -/
def sessionGone : Cause :=
  .engine "evaluation session is no longer available"

/-- What a name means. -/
inductive Binding
  | place (p : Outline.Place)
  | value (v : Value)

namespace Session

/-- A name bound at the root: an override, the time, `lib`, `math` or `import`.
Imports are relative to `folder`. -/
def rootBinding (s : Session) (place : Nat) (folder name : String) : Run (Option Value) := do
  let key := Text.lower name
  match s.overrides.lookup key with
  | some v => return some v
  | none =>
    if key = Text.lower s.settings.timeVariable then return some (timeValue s.time)
    else if key = "lib" then return some s.library
    else if key = "math" then return some s.math
    else if key = "import" then return some (← Run.newTyped (.importer place folder))
    else return none

/-- What a name means in a folder. -/
def binding (s : Session) (place : Nat) (folder name : String) : Run (Option Binding) := do
  match s.outline.place? folder name with
  | some p => return some (.place p)
  | none => return (← s.rootBinding place folder name).map .value

end Session

namespace Run

/-- A session that is still there. -/
def session? (place : Nat) : Run (Option Session) := do
  return ((← get).sessions[place]?).filter (·.alive)

/-- A session that must still be there. -/
def session (place : Nat) : Run Session := do
  match ← session? place with
  | some s => return s
  | none => fail sessionGone

end Run

/-! ## Reading -/

namespace Engine

open Formula

variable (engine : Engine)

/-- The value of an outcome that was read under a name. -/
def typedOutcome (name : String) : Outcome → Run Value
  | .value _ typed => return typed
  | .failure first _ => Run.fail (failedRead name first.kind.name first.message)

/-- The native value of an outcome that was read under a name: the very value that a
script computed. -/
def nativeOutcome (name : String) : Outcome → Run Native
  | .value native _ => return native
  | .failure first _ => Run.fail (failedRead name first.kind.name first.message)

/-- The value that a name means. -/
def typedBinding (session : Nat) (name : String) : Binding → Run Value
  | .place (.expression key) => do
    match ← engine.ask (.evaluate session key) with
    | some r => typedOutcome name r.outcome
    | none => return .null
  | .place (.folder key) => do checkedRead name (← engine.ask (.folderValue session key))
  | .value v => return v

/-- The native value that a name means. -/
def nativeBinding (session : Nat) (name : String) : Binding → Run Native
  | .place (.expression key) => do
    match ← engine.ask (.evaluate session key) with
    | some r => nativeOutcome name r.outcome
    | none => return .null
  | b => do engine.ask (.native (← engine.typedBinding session name b))

/-- The value of a name that a formula does not bind itself. -/
def lookUp (scope : Scope Value) (name : String) : Run (Option Value) := do
  match scope with
  | .fixed bindings =>
    if name = "math" then return some (← newMath)
    else match bindings.lookup name with
      | some (.ok v) => return some v
      | some (.error f) => Run.fault f
      | none => return none
  | .folder place folder =>
    let s ← Run.session place
    match ← s.binding place folder name with
    | some b => return some (← engine.typedBinding place name b)
    | none => return none

end Engine
end Workbook
