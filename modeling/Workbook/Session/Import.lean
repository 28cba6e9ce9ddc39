/-
Sessions and their modules: making sessions, importing, moving to another time, and
letting go of them.  A module is a workbook of its own with its own session; all
sessions that come from one share their modules.
-/
import Workbook.Session.Evaluation

namespace Workbook

/-! ## Specifiers -/

namespace Import

/-- Whether a specifier is a path from the folder that imports. -/
def isRelative (specifier : String) : Bool :=
  "./".isPrefixOf specifier || "../".isPrefixOf specifier

/-- A name without the ending of a source file. -/
def stem (name : String) : String :=
  let cs := name.toList
  let without (ending : String) : Option String :=
    if ending.toList.isSuffixOf cs then
      some (String.ofList (cs.take (cs.length - ending.length)))
    else none
  ((without ".fx").or (without ".js")).getD name

/-- The parts of a key after following the parts of a path.  A path must not lead above
the root. -/
def follow (parts : List String) : List String → Option (List String)
  | [] => some parts
  | p :: rest =>
    if p = "" ∨ p = "." then follow parts rest
    else if p = ".." then
      if parts.isEmpty then none else follow parts.dropLast rest
    else follow (parts ++ [Text.lower (if rest.isEmpty then stem p else p)]) rest

/-- The key that a relative specifier designates from a folder. -/
def resolve? (folder specifier : String) : Option String :=
  (follow (pathParts folder) (specifier.splitOn "/")).map ("/".intercalate ·)

/-- What an import of something that is not there fails with. -/
def notFound (specifier : String) : Fault :=
  .engine ("module not found: '" ++ specifier ++ "'")

/-- What an import fails with that a module needs to compute itself. -/
def circular (specifier : String) : Fault :=
  .engine ("circular import: '" ++ specifier ++ "'")

/-- A value that stands for a failure fails. -/
def checked : Value → Except Fault Value
  | .error kind message _ =>
    .error (if kind = FailureKind.engine.name then .engine message else .runtime message)
  | v => .ok v

end Import

/-! ## Sessions -/

/-- What a session is made of. -/
structure Options where
  settings : Settings
  /-- Bindings ahead of all others at the root, by their names in lower case. -/
  overrides : List (String × Value)
  registry : List (String × Tree)

namespace Options

/-- Binds a name.  The first binding of a name counts. -/
def withOverride (o : Options) (name : String) (v : Value) : Options :=
  let key := Text.lower name
  if (o.overrides.lookup key).isSome then o
  else { o with overrides := o.overrides ++ [(key, v)] }

/-- Registers a module, in place of one that has the specifier. -/
def withModule (o : Options) (specifier : String) (t : Tree) : Options :=
  { o with registry := Keyed.put specifier t o.registry }

end Options

namespace Run

/-- A new session that uses modules. -/
def newSessionWith (modules : Nat) (tree : Tree) (settings : Settings)
    (overrides : List (String × Value)) (time : Float) : Run Nat := do
  let library ← Formula.newLibrary
  let math ← Formula.newMath
  modifyGet fun s =>
    (s.sessions.size,
      { s with
        sessions := s.sessions.push
          { alive := true, tree, outline := .ofTree tree, settings, overrides, library, math, time
            results := [], inFlight := [], folderValues := [], imports := []
            scripts := .empty settings.cacheCapacity, modules, stats := ⟨0, 0, 0⟩ } })

/-- A new session with modules of its own. -/
def newSession (tree : Tree) (options : Options) (time : Float) : Run Nat := do
  let modules ← modifyGet fun s =>
    (s.modules.size, { s with modules := s.modules.push ⟨true, options.registry, [], []⟩ })
  newSessionWith modules tree options.settings options.overrides time

/-- Lets go of a session. -/
def release (place : Nat) : Run Unit :=
  changeSession place fun s => { s with alive := false }

/-- Changes the modules of sessions. -/
def changeModules (place : Nat) (f : Modules → Modules) : Run Unit :=
  modify fun s => { s with modules := s.modules.modify place f }

/-- Lets go of all modules that were loaded. -/
def releaseModules (place : Nat) : Run Unit := do
  match (← get).modules[place]? with
  | some m =>
    m.loaded.forM fun e => release e.2
    changeModules place fun m => { m with loaded := [] }
  | none => return

/-- Moves a session to another time.  Whatever was computed is forgotten. -/
def setTime (place : Nat) (time : Float) : Run Unit := do
  changeSession place fun s =>
    { s with time, results := [], folderValues := [], imports := [] }
  match (← get).sessions[place]? with
  | some s => releaseModules s.modules
  | none => return

/-- Lets go of a session and its modules. -/
def dropSession (place : Nat) : Run Unit := do
  match (← get).sessions[place]? with
  | some s =>
    releaseModules s.modules
    changeModules s.modules fun m => { m with alive := false }
    release place
  | none => return

end Run

namespace Engine

variable (engine : Engine)

/-! ## Importing -/

/-- The value under a key of a session; none if nothing has the key. -/
def valueAt? (place : Nat) (o : Outline) (key : String) : Run (Option Value) := do
  if (o.expression? key).isSome then
    return some (((← engine.ask (.evaluate place key)).map (·.outcome.toValue)).getD .null)
  else if (o.folder? key).isSome then
    return some (← engine.ask (.folderValue place key))
  else return none

/-- The value that a relative specifier designates. -/
def importRelative (place : Nat) (s : Session) (folder specifier : String) : Run Value := do
  match Import.resolve? folder specifier with
  | none => Run.fault (Import.notFound specifier)
  | some key =>
    match s.imports.lookup key with
    | some v => return v
    | none =>
      match ← engine.valueAt? place s.outline key with
      | none => Run.fault (Import.notFound specifier)
      | some v =>
        Run.changeSession place fun s => { s with imports := (key, v) :: s.imports }
        return v

/-- Computes a module for the first time.  A module whose value is a failure is let go
of again. -/
def loadModule (s : Session) (specifier : String) (tree : Tree) : Run Nat := do
  let place ← Run.newSessionWith s.modules tree s.settings s.overrides s.time
  Run.changeModules s.modules fun m => { m with loading := specifier :: m.loading }
  let root ← engine.ask (.folderValue place "")
  Run.changeModules s.modules fun m => { m with loading := m.loading.erase specifier }
  match Import.checked root with
  | .error f =>
    Run.release place
    Run.fault f
  | .ok _ =>
    Run.changeModules s.modules fun m => { m with loaded := Keyed.put specifier place m.loaded }
    return place

/-- The session of a module, which is computed when it is first imported. -/
def moduleSession (s : Session) (specifier : String) : Run Nat := do
  match ((← get).modules[s.modules]?).filter (·.alive) with
  | none => Run.fail sessionGone
  | some m =>
    match m.loaded.lookup specifier with
    | some place => return place
    | none =>
      if m.loading.contains specifier then Run.fault (Import.circular specifier)
      match m.registry.lookup specifier with
      | none => Run.fault (Import.notFound specifier)
      | some tree => engine.loadModule s specifier tree

/-- The value of the function `import` in a folder. -/
def importValue (place : Nat) (folder : String) (arguments : List Value) : Run Value := do
  match (arguments[0]? : Option Value) with
  | some (.string specifier) =>
    let s ← Run.session place
    let v ←
      if Import.isRelative specifier then engine.importRelative place s folder specifier
      else do
        let m ← engine.moduleSession s specifier
        engine.ask (.folderValue m "")
    Run.ofFaulty (Import.checked v)
  | _ => Run.fault (.runtime "import expects a module specifier string")

end Engine
end Workbook
