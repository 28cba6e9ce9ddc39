/-
Running statements, functions and whole scripts.
-/
import Workbook.Script.Evaluator

namespace Workbook
namespace Engine

open Script

variable (engine : Engine)

/-! ## Statements -/

/-- Defines the functions that statements declare, so that they can be called ahead of
their declarations. -/
def hoist (run block : Nat) : List Stmt → Run Unit
  | [] => return
  | .function f :: rest => do
    match f.name with
    | some n => Run.define block n.text (← newFunction run block f none)
    | none => pure ()
    hoist run block rest
  | _ :: rest => hoist run block rest

/-- Runs statements until one does not end normally.  A failure is located at the
innermost list of statements. -/
def inOrder (run block : Nat) : List Stmt → Run Flow
  | [] => return .normal
  | st :: rest => do
    let place := st.span
    let flow ← Run.mapFailure (·.located place.line place.column)
      (engine.ask (.statement run block st))
    match flow with
    | .normal => inOrder run block rest
    | flow => return flow

/-- Runs the statements of a block. -/
def statements (run block : Nat) (body : List Stmt) : Run Flow := do
  hoist run block body
  engine.inOrder run block body

/-- Runs `body` and `step` as long as a condition holds; `fuel` bounds how often. -/
def repeatWhile (condition : Run Bool) (body : Run Flow) (step : Run Unit) : Nat → Run Flow
  | 0 => Run.exhausted
  | fuel + 1 => do
    if ← condition then
      match ← body with
      | .broke => return .normal
      | .returned v => return .returned v
      | .normal | .continued =>
        step
        repeatWhile condition body step fuel
    else return .normal

/-- Runs `body` for each of the items. -/
def overItems (body : Native → Run Flow) : List Native → Run Flow
  | [] => return .normal
  | v :: rest => do
    match ← body v with
    | .broke => return .normal
    | .returned v => return .returned v
    | .normal | .continued => overItems body rest

/-- Runs a statement in a block of an execution; `fuel` bounds how often a loop in it
goes round. -/
def statement (fuel run block : Nat) (st : Stmt) : Run Flow := do
  let eval (e : Expr) : Run Native := engine.ask (.expression run block e)
  let holds (block : Nat) (e : Expr) : Run Bool := do
    return (← engine.ask (.expression run block e)).isTruthy
  match st with
  | .declaration _ how k value =>
    let v ← match value with
      | some e => engine.boundValue run block k.text e
      | none => pure .undefined
    Run.declare block k.text how v
    return .normal
  | .function _ => return .normal
  | .branch _ c yes no =>
    if ← holds block c then engine.ask (.statement run block yes)
    else match no with
      | some no => engine.ask (.statement run block no)
      | none => return .normal
  | .whileLoop _ c body =>
    repeatWhile (holds block c) (engine.ask (.statement run block body)) (pure ()) fuel
  | .forLoop _ start c step body =>
    let inner ← Run.newBlock (some block)
    match start with
    | some st =>
      let _ ← engine.ask (.statement run inner st)
    | none => pure ()
    let condition : Run Bool := match c with
      | some c => holds inner c
      | none => return true
    let advance : Run Unit := match step with
      | some e => do
        let _ ← engine.ask (.expression run inner e)
      | none => return
    repeatWhile condition (engine.ask (.statement run inner body)) advance fuel
  | .forOf _ how k items body =>
    let v ← eval items
    let vs ← Run.ofExcept (v.walk (← get))
    overItems (fun v => do
      let inner ← Run.newBlock (some block)
      Run.declare inner k.text how v
      engine.ask (.statement run inner body)) vs
  | .returns _ value =>
    match value with
    | some e => return .returned (← eval e)
    | none => return .returned .undefined
  | .breaks _ => return .broke
  | .continues _ => return .continued
  | .throws _ e =>
    let v ← eval e
    Run.fail (.thrown (v.thrownText (← get)))
  | .block _ body => engine.statements run (← Run.newBlock (some block)) body
  | .expr e =>
    let _ ← eval e
    return .normal
  | .empty _ => return .normal

/-! ## Functions -/

/-- Runs a call that belongs to an execution, unless too many are active. -/
def callDuring (run : Nat) (x : Run Native) : Run Native := do
  let change (f : Nat → Nat) : Run Unit := modify fun s =>
    { s with executions := s.executions.modify run fun e => { e with depth := f e.depth } }
  if ((← get).executions[run]?).any fun e => e.maxDepth ≤ e.depth then
    Run.fail .tooManyCalls
  change (· + 1)
  Run.ensuring x (change (· - 1))

/-- Defines the parameters from number `i` on.  Missing arguments are undefined. -/
def defineParameters (block : Nat) (arguments : List Native) (i : Nat) : List Name → Run Unit
  | [] => return
  | p :: rest => do
    Run.define block p.text (argument arguments i)
    defineParameters block arguments (i + 1) rest

/-- The value of the body of a function. -/
def bodyValue (run block : Nat) (body : Body) : Run Native := do
  match body with
  | .block body =>
    match ← engine.statements run block body with
    | .returned v => return v
    | _ => return .undefined
  | .expr e =>
    Run.mapFailure (·.located e.span.line e.span.column)
      (engine.ask (.expression run block e))

/-- The value of a function of a script for arguments. -/
def invoke (run block : Nat) (f : Function) (name : String) (arguments : List Native) :
    Run Native :=
  callDuring run do
    let inner ← Run.newBlock (some block)
    defineParameters inner arguments 0 f.parameters
    Run.mapFailure (·.left name) (engine.bodyValue run inner f.body)

/-! ## Scripts -/

/-- Runs a script as a function of this name.  A script that does not return anything
yields null. -/
def runScript (scope : Scope Native) (maxDepth : Nat) (name : String) (body : List Stmt) :
    Run Native := do
  let run ← modifyGet fun s =>
    (s.executions.size, { s with executions := s.executions.push ⟨scope, [], 0, maxDepth⟩ })
  let block ← Run.newBlock none
  match ← Run.mapFailure (·.left name) (engine.statements run block body) with
  | .returned v => return v
  | _ => return .null

end Engine
end Workbook
