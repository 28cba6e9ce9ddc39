/-
Evaluating the expressions and folders of a session.  A result is computed when it
is first asked for and kept from then on; an expression that asks for its own result
while it is being executed gets a failure.
-/
import Workbook.Formula.Evaluator
import Workbook.Formula.Parser
import Workbook.Script.Execution
import Workbook.Script.Parser

namespace Workbook

namespace Run

/-- Changes a session. -/
def changeSession (place : Nat) (f : Session → Session) : Run Unit :=
  modify fun s => { s with sessions := s.sessions.modify place f }

/-- Counts something that a session does. -/
def count (place : Nat) (f : Stats → Stats) : Run Unit :=
  changeSession place fun s => { s with stats := f s.stats }

/-- A new result. -/
def newResult (outcome : Outcome) : Run Result := do
  return ⟨← freshId, outcome⟩

/-- A new lazy entry. -/
def newThunk (w : Work) : Run Slot :=
  modifyGet fun s => (.lazy s.thunks.size, { s with thunks := s.thunks.push (.pending w) })

end Run

/-! ## Texts with problems -/

namespace Outcome

/-- A detail for each problem with a formula, with the place of each. -/
def problemDetails (s : Source) (ps : Problems) : List Detail :=
  ps.kept.map fun p => ⟨.parser, p.cause.message, some (s.locate p.span), none⟩

/-- The failure of a formula that cannot be read. -/
def unreadableFormula (s : Source) (ps : Problems) : Outcome :=
  match problemDetails s ps with
  | first :: more => failure first more
  | [] => failed .parser "invalid formula"

/-- The failure of a script that cannot be read. -/
def unreadableScript (ps : Problems) : Outcome :=
  match ps.kept with
  | p :: _ => failed .runtime ("syntax error at " ++ p.span.text ++ ": " ++ p.cause.message)
  | [] => failed .runtime "syntax error"

end Outcome

namespace Session

/-- The source text of an expression.  One that cannot be had is empty. -/
def sourceText (s : Session) (node : Outline.Expression) : String :=
  match s.tree.text node.segments with
  | .ok (some t) => t
  | _ => ""

end Session

namespace Engine

variable (engine : Engine)

/-! ## Executing -/

/-- The value of a formula in a scope, outside all calls. -/
def runFormula (scope : Scope Value) (maxDepth : Nat) (e : Formula.Expr) : Run Value := do
  let evaluation ← modifyGet fun s =>
    (s.evaluations.size, { s with evaluations := s.evaluations.push ⟨scope, 0, maxDepth⟩ })
  engine.ask (.formula evaluation [] e)

/-- The outcome of a formula.  Its native value is frozen, for others will share it. -/
def executeFormula (place : Nat) (s : Session) (node : Outline.Expression) : Run Outcome := do
  let source : Source := ⟨node.path, s.sourceText node⟩
  match Formula.compile source with
  | .error ps => return .unreadableFormula source ps
  | .ok e =>
    match ← Run.outcome
        (engine.runFormula (.folder place node.parent) s.settings.maxCallDepth e) with
    | .error f => return .ofCause f.cause
    | .ok v =>
      let n ← engine.ask (.native v)
      Run.freeze n
      return .value n v

/-- The script of a text, compiled now or earlier. -/
def compiled (place : Nat) (s : Session) (source : Source) :
    Run (Except Problems Script.Program) := do
  match s.scripts.find? source.text with
  | some p => return .ok p
  | none =>
    match Script.compile source with
    | .error ps => return .error ps
    | .ok p =>
      Run.changeSession place fun s => { s with scripts := s.scripts.insert source.text p }
      return .ok p

/-- The outcome of a script.  Its value is frozen, for others will share it. -/
def executeScript (place : Nat) (s : Session) (node : Outline.Expression) : Run Outcome := do
  match ← compiled place s ⟨node.path, s.sourceText node⟩ with
  | .error ps => return .unreadableScript ps
  | .ok p =>
    match ← Run.outcome
        (engine.runScript (.folder place node.parent) s.settings.maxCallDepth node.name p.body) with
    | .error f => return .ofFailure f
    | .ok n =>
      match n.toValue (← get) with
      | .error f => return .ofFault f
      | .ok v =>
        Run.freeze n
        return .value n v

/-- The outcome of an expression, computed anew. -/
def execute (place : Nat) (s : Session) (node : Outline.Expression) : Run Outcome := do
  Run.count place fun c => { c with executions := c.executions + 1 }
  match node.language with
  | .formula => engine.executeFormula place s node
  | .script => engine.executeScript place s node

/-! ## Results -/

/-- The result of the expression under a key; none if there is no such expression. -/
def evaluate (place : Nat) (key : String) : Run (Option Result) := do
  match (← get).sessions[place]? with
  | none => return none
  | some s =>
    match s.outline.expression? key, s.results.lookup key with
    | none, _ => return none
    | some _, some r =>
      Run.count place fun c => { c with cacheHits := c.cacheHits + 1 }
      return some r
    | some node, none =>
      if s.inFlight.contains key then
        Run.count place fun c => { c with circularDetections := c.circularDetections + 1 }
        some <$> Run.newResult (.failed .engine ("circular reference: " ++ node.path))
      else
        Run.changeSession place fun s => { s with inFlight := key :: s.inFlight }
        let r ← Run.newResult (← engine.execute place s node)
        Run.changeSession place fun s =>
          { s with inFlight := s.inFlight.erase key, results := (key, r) :: s.results }
        return some r

/-- The results of all expressions, with their paths. -/
def evaluateAll (place : Nat) (o : Outline) : Run (List (String × Result)) := do
  let results ← o.expressions.mapM fun e => do
    return (← engine.ask (.evaluate place e.key)).map (e.path, ·)
  return results.filterMap id

/-! ## Folders -/

/-- The names of expressions that stand for their folder, the first one before the
second. -/
def sentinels : List String := ["return", "eval"]

/-- The entries of a folder, all of them lazy: expressions first, then folders. -/
def lazyEntries (place : Nat) (o : Outline) (key : String) : Run Entries := do
  let expressions := (o.childExpressions key).filter fun e =>
    !sentinels.contains (Text.lower e.name)
  let entries ← expressions.foldlM (fun out e => do
    return Entries.insert out e.name (← Run.newThunk (.expression place e.key))) []
  (o.childFolders key).foldlM (fun out f => do
    return Entries.insert out f.name (← Run.newThunk (.folder place f.key))) entries

/-- The result of the first of several expressions that exists. -/
def firstResult (place : Nat) : List String → Run (Option Result)
  | [] => return none
  | key :: rest => do
    match ← engine.ask (.evaluate place key) with
    | some r => return some r
    | none => firstResult place rest

/-- The value of a folder: that of the expression that stands for it, or else a mapping
of what is in it. -/
def folderValue (place : Nat) (key : String) : Run Value := do
  match (← get).sessions[place]? with
  | none => return .null
  | some s =>
    if (s.outline.folder? key).isNone then return .null
    match ← engine.firstResult place (sentinels.map (childKey key)) with
    | some r => return r.outcome.toValue
    | none =>
      match s.folderValues.lookup key with
      | some v => return v
      | none =>
        let v := Value.ofEntries (← lazyEntries place s.outline key)
        Run.changeSession place fun s => { s with folderValues := (key, v) :: s.folderValues }
        return v

end Engine
end Workbook
