/-
The names that a script does not declare itself: the global ones first, then those
that its surroundings bind.  A name of a folder is looked for once in an execution.
-/
import Workbook.Script.Block
import Workbook.Script.Global
import Workbook.Session.Lookup

namespace Workbook

namespace Run

/-- Keeps the value of a name for the rest of an execution. -/
def remember (run : Nat) (name : String) (v : Native) : Run Unit :=
  modify fun s =>
    { s with executions := s.executions.modify run fun e => { e with known := (name, v) :: e.known } }

/-- Whether a name has a meaning in the surroundings of a script, whatever comes of
reading it. -/
def isBound (scope : Scope Native) (known : Fields) (name : String) : Run Bool := do
  if Script.Global.isName name || (known.lookup name).isSome then return true
  match scope with
  | .fixed bindings => return (bindings.lookup name).isSome
  | .folder place folder =>
    match ← session? place with
    | some s => return (← s.binding place folder name).isSome
    | none => return false

end Run

namespace Engine

variable (engine : Engine)

/-- The value of a name of a folder, as a caller gets it. -/
def folderName (place : Nat) (folder name : String) : Run (Option Native) :=
  Run.behindCall do
    let s ← Run.session place
    match ← s.binding place folder name with
    | some b => return some (← engine.nativeBinding place name b)
    | none => return none

/-- The value that a name has in the surroundings of an execution. -/
def outerName (run : Nat) (name : String) : Run (Option Native) := do
  match (← get).executions[run]? with
  | none => return none
  | some e =>
    match e.scope with
    | .fixed bindings =>
      match Script.Global.ofName? name, bindings.lookup name with
      | some g, _ => return some (← Run.newGlobal g)
      | none, some (.ok v) => return some v
      | none, some (.error f) => Run.fault f
      | none, none => return none
    | .folder place folder =>
      match e.known.lookup name with
      | some v => return some v
      | none =>
        let found ← match Script.Global.ofName? name with
          | some g => some <$> Run.newGlobal g
          | none => engine.folderName place folder name
        found.forM (Run.remember run name)
        return found

/-- The value of a name. -/
def nameInScript (run block : Nat) (name : String) : Run Native := do
  match (← get).valueOf? block name with
  | some v => return v
  | none =>
    match ← engine.outerName run name with
    | some v => return v
    | none => Run.fail (.undefinedName name)

end Engine

namespace Run

/-- Whether a name means anything in a block of an execution. -/
def isDefined (run block : Nat) (name : String) : Run Bool := do
  let s ← get
  if (s.valueOf? block name).isSome then return true
  match s.executions[run]? with
  | some e => isBound e.scope e.known name
  | none => return false

end Run
end Workbook
