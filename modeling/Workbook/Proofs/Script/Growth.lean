/-
No parser of scripts gives up in silence, and problems that have been found stay (`grows_level`,
`grows_whole`).

The body of a function and of a loop is read with another count of loops, which is put back even if
the body cannot be read.
-/
import Workbook.Proofs.Parser.Reading
import Workbook.Script.Parser

namespace Workbook
namespace Script
namespace Parser

open Workbook.Parser
open Token (Kind Symbol)

/-! ## Functions and loops -/

theorem on_functionBody (block : BlockParser) (s : State) : (functionBody block).on s =
    ((block.on (s.within 0)).1, (block.on (s.within 0)).2.within s.loops) := by
  show (ofOutcome (block.on (s.within 0)).1).on ((block.on (s.within 0)).2.within s.loops) = _
  cases (block.on (s.within 0)).1 <;> rfl

/-- A statement in a loop, after which the count of loops is lowered in some way. -/
def loopBodyBy (lower : Nat → Nat) (statement : StmtParser) : StmtParser := do
  modify fun s => { s with loops := s.loops + 1 }
  let outcome ← attempt statement
  modify fun s => { s with loops := lower s.loops }
  ofOutcome outcome

theorem on_loopBodyBy (lower : Nat → Nat) (statement : StmtParser) (s : State) :
    (loopBodyBy lower statement).on s =
      ((statement.on (s.within (s.loops + 1))).1,
        (statement.on (s.within (s.loops + 1))).2.within
          (lower (statement.on (s.within (s.loops + 1))).2.loops)) := by
  show (ofOutcome (statement.on (s.within (s.loops + 1))).1).on _ = _
  cases (statement.on (s.within (s.loops + 1))).1 <;> rfl

theorem on_loopBody (statement : StmtParser) (s : State) : (loopBody statement).on s =
    ((statement.on (s.within (s.loops + 1))).1,
      (statement.on (s.within (s.loops + 1))).2.within
        ((statement.on (s.within (s.loops + 1))).2.loops - 1)) :=
  on_loopBodyBy (· - 1) statement s

/-- The parameters of an arrow function: in parentheses, or one by itself. -/
def arrowParameters : Workbook.Parser (List Name) := do
  if ← seesSymbol .leftParen then parameters else (fun n => [n]) <$> name

/-- The body of an arrow function: statements in braces, or an expression. -/
def arrowBody (expr : ExprParser) (block : BlockParser) : Workbook.Parser Body := do
  if ← seesSymbol .leftBrace then Body.block <$> functionBody block else Body.expr <$> expr

theorem arrow_eq (expr : ExprParser) (block : BlockParser) : arrow expr block = (do
    let first ← here
    let ps ← arrowParameters
    expectSymbol .arrow
    let body ← arrowBody expr block
    return .function (.mk none ps body (← since first))) := by
  unfold arrow arrowParameters arrowBody
  simp only [bind_assoc]
  refine bind_congr fun first => bind_congr fun b => ?_
  cases b
  · simp only [if_neg Bool.false_ne_true]
    refine bind_congr fun first => bind_congr fun u => bind_congr fun b => ?_
    cases b <;> rfl
  · simp only [if_true]
    refine bind_congr fun first => bind_congr fun u => bind_congr fun b => ?_
    cases b <;> rfl

section Growth

variable {expr power operand deeper : ExprParser} {block : BlockParser} {statement : StmtParser}

instance [h : block.Grows] : (functionBody block).Grows where
  adds s := by
    rw [on_functionBody]
    exact h.adds (s.within 0)
  rest s := by
    rw [on_functionBody]
    exact h.rest (s.within 0)
  depth s := by
    rw [on_functionBody]
    exact h.depth (s.within 0)
  loops s := by rw [on_functionBody, State.within_loops]

instance [h : statement.Grows] : (loopBody statement).Grows where
  adds s := by
    rw [on_loopBody]
    exact h.adds (s.within (s.loops + 1))
  rest s := by
    rw [on_loopBody]
    exact h.rest (s.within (s.loops + 1))
  depth s := by
    rw [on_loopBody]
    exact h.depth (s.within (s.loops + 1))
  loops s := by
    rw [on_loopBody, State.within_loops, h.loops (s.within (s.loops + 1)), State.within_loops]
    rfl

instance [block.Grows] : (function block).Grows := by
  unfold function
  refine .bind inferInstance fun _ => .bind inferInstance fun _ => .bind inferInstance fun k => ?_
  split <;> infer_instance

instance : seesArrow.Grows := by
  unfold seesArrow
  refine .bind inferInstance fun s => ?_
  split <;> infer_instance

instance : arrowParameters.Grows := by
  unfold arrowParameters
  infer_instance

instance [expr.Grows] [block.Grows] : (arrowBody expr block).Grows := by
  unfold arrowBody
  infer_instance

instance [expr.Grows] [block.Grows] : (arrow expr block).Grows := by
  rw [arrow_eq]
  infer_instance

/-! ## Operands -/

instance [expr.Grows] [block.Grows] (k : Name) : (entryValue expr block k).Grows := by
  unfold entryValue
  infer_instance

instance [expr.Grows] [block.Grows] : (entry expr block).Grows := by
  unfold entry
  infer_instance

instance [expr.Grows] [block.Grows] : (primary expr block).Grows := by
  unfold primary
  refine .bind inferInstance fun k => ?_
  split <;> infer_instance

instance [expr.Grows] (fuel : Nat) (e : Expr) : (suffixes expr fuel e).Grows := by
  induction fuel generalizing e with
  | zero => unfold suffixes; infer_instance
  | succ fuel ih =>
    unfold suffixes
    refine .bind inferInstance fun k => ?_
    split <;> infer_instance

instance (e : Expr) : (checkTarget e).Grows := by
  unfold checkTarget
  infer_instance

/-- An operand, and `++` or `--` that comes after it on its line. -/
def stepped (e : Expr) : ExprParser := do
  let s ← get
  match stepOp s.kind with
  | some increment =>
    if s.onSameLine then
      let _ ← take
      checkTarget e
      return .update (← since e.span) increment false e
    return e
  | none => return e

theorem suffixed_eq (expr : ExprParser) (block : BlockParser) : suffixed expr block = (do
    let e ← primary expr block
    stepped (← suffixes expr (← get).rest.length e)) := rfl

instance (e : Expr) : (stepped e).Grows := by
  unfold stepped
  refine .bind inferInstance fun s => ?_
  split <;> infer_instance

instance [expr.Grows] [block.Grows] : (suffixed expr block).Grows := by
  rw [suffixed_eq]
  infer_instance

instance [expr.Grows] [block.Grows] [deeper.Grows] (steps : Nat) :
    (unary expr block deeper steps).Grows := by
  induction steps with
  | zero => unfold unary; infer_instance
  | succ steps ih =>
    unfold unary
    refine .bind inferInstance fun k => ?_
    split <;> infer_instance

/-! ## Operators -/

instance [operand.Grows] [deeper.Grows] : (Parser.power operand deeper).Grows := by
  unfold Parser.power
  infer_instance

instance [operand.Grows] (table : Symbol → Option BinaryOp) : (joinedBy table operand).Grows := by
  unfold joinedBy
  infer_instance

instance [operand.Grows] (s : Symbol) (op : LogicalOp) :
    (logicallyJoinedBy s op operand).Grows := by
  unfold logicallyJoinedBy
  infer_instance

instance [power.Grows] : (coalesced power).Grows := by
  unfold coalesced
  infer_instance

instance [expr.Grows] [power.Grows] : (conditional expr power).Grows := by
  unfold conditional
  infer_instance

instance [expr.Grows] [power.Grows] [block.Grows] : (assignment expr power block).Grows := by
  unfold assignment
  refine .bind inferInstance fun b => ?_
  split
  · infer_instance
  · refine .bind inferInstance fun target => .bind inferInstance fun k => ?_
    split
    · split <;> infer_instance
    · infer_instance

/-! ## Statements -/

instance (fuel : Nat) (moved : Bool) : (skip fuel moved).Grows := by
  induction fuel generalizing moved with
  | zero => unfold skip; infer_instance
  | succ fuel ih =>
    unfold skip
    refine .bind inferInstance fun k => ?_
    split <;> infer_instance

/-- What is done after a bad statement that began with so many tokens ahead. -/
def skipBad (ahead : Nat) : Workbook.Parser (Option Stmt) := do
  let left := (← get).rest.length
  skip left (left < ahead)
  return none

instance (ahead : Nat) : (skipBad ahead).Grows := by
  unfold skipBad
  infer_instance

theorem on_statementOrSkip (statement : StmtParser) (s : State) : (statementOrSkip statement).on s =
    ((statement.on s).1.elim (skipBad s.rest.length) fun a => return some a).on
      (statement.on s).2 := by
  have hrun : (statementOrSkip statement).on s = (attempt statement >>= fun o =>
      o.elim (skipBad s.rest.length) fun a => return some a).on s := by
    unfold statementOrSkip
    rw [on_bind]
    show Parser.on _ s = _
    rw [on_bind, on_bind, on_attempt]
    cases (statement.on s).1 <;> rfl
  rw [hrun, on_bind, on_attempt]
  rfl

instance [statement.Grows] : (statementOrSkip statement).Grows := by
  unfold statementOrSkip
  refine .bind inferInstance fun s => .bind inferInstance fun o => ?_
  split <;> infer_instance

instance : endStatement.Grows := by
  unfold endStatement
  infer_instance

instance [statement.Grows] (fuel : Nat) : (statements statement fuel).Grows := by
  induction fuel with
  | zero => unfold statements; infer_instance
  | succ fuel ih => unfold statements; infer_instance

instance [statement.Grows] : (braced statement).Grows := by
  unfold braced
  infer_instance

instance [expr.Grows] (how : Declarator) : (declaration how expr).Grows := by
  unfold declaration
  infer_instance

instance [expr.Grows] : (condition expr).Grows := by
  unfold condition
  infer_instance

instance [expr.Grows] [statement.Grows] : (branch expr statement).Grows := by
  unfold branch
  infer_instance

instance [expr.Grows] [statement.Grows] : (whileLoop expr statement).Grows := by
  unfold whileLoop
  infer_instance

instance [expr.Grows] (close : Symbol) : (upTo close expr).Grows := by
  unfold upTo
  infer_instance

instance [expr.Grows] : (loopStart expr).Grows := by
  unfold loopStart
  refine .bind inferInstance fun k => ?_
  split <;> infer_instance

instance [expr.Grows] [statement.Grows] : (forLoop expr statement).Grows := by
  unfold forLoop
  refine .bind inferInstance fun _ => .bind inferInstance fun _ => .bind inferInstance fun s => ?_
  split <;> infer_instance

instance [expr.Grows] : (returning expr).Grows := by
  unfold returning
  refine .bind inferInstance fun first => .bind inferInstance fun s => ?_
  extract_lets
  infer_instance

instance (word : String) (make : Span → Stmt) : (jump word make).Grows := by
  unfold jump
  infer_instance

instance [expr.Grows] : (throwing expr).Grows := by
  unfold throwing
  infer_instance

instance [expr.Grows] (how : Declarator) : (declared how expr).Grows := by
  unfold declared
  infer_instance

instance [expr.Grows] : (expressionStatement expr).Grows := by
  unfold expressionStatement
  infer_instance

instance [expr.Grows] (fuel : Nat) : (Parser.statement expr fuel).Grows := by
  induction fuel with
  | zero => unfold Parser.statement; infer_instance
  | succ fuel ih =>
    unfold Parser.statement
    refine .bind inferInstance fun s => ?_
    split <;> infer_instance

instance [expr.Grows] : (Parser.block expr).Grows := by
  unfold Parser.block
  infer_instance

/-! ## Levels and scripts -/

theorem grows_over {powerBelow operandBelow : ExprParser} [expr.Grows] [powerBelow.Grows]
    [operandBelow.Grows] : (Level.over expr powerBelow operandBelow).expr.Grows ∧
      (Level.over expr powerBelow operandBelow).power.Grows ∧
      (Level.over expr powerBelow operandBelow).operand.Grows := by
  unfold Level.over
  exact ⟨inferInstance, inferInstance, inferInstance⟩

theorem grows_level (n : Nat) :
    (level n).expr.Grows ∧ (level n).power.Grows ∧ (level n).operand.Grows := by
  induction n with
  | zero =>
    unfold level
    exact grows_over
  | succ n ih =>
    obtain ⟨_, _, _⟩ := ih
    unfold level
    exact grows_over

instance [statement.Grows] (fuel : Nat) : (topLevel statement fuel).Grows := by
  induction fuel with
  | zero => unfold topLevel; infer_instance
  | succ fuel ih => unfold topLevel; infer_instance

theorem grows_whole : whole.Grows := by
  have : expression.Grows := (grows_level maxNesting).1
  unfold whole
  infer_instance

end Growth

/-! ## Lists of statements -/

/-- One statement, and the rest of a list after it. -/
def andRest (statement : StmtParser) (rest : Workbook.Parser (List Stmt)) :
    Workbook.Parser (List Stmt) := do
  let first ← statementOrSkip statement
  return first.toList ++ (← rest)

theorem on_statements_succ (statement : StmtParser) (s : State) (fuel : Nat) :
    (statements statement (fuel + 1)).on s =
      if s.kind = .symbol .rightBrace ∨ s.kind = .endOfInput ∨ s.problems.isFull = true then
        (some [], s)
      else (andRest statement (statements statement fuel)).on s := by
  have hon : (statements statement (fuel + 1)).on s =
      (if (decide (s.kind = .symbol .rightBrace) || decide (s.kind = .endOfInput) ||
        s.problems.isFull) = true then pure []
      else andRest statement (statements statement fuel) : Workbook.Parser _).on s := rfl
  rw [hon]
  by_cases hend : s.kind = .symbol .rightBrace ∨ s.kind = .endOfInput ∨ s.problems.isFull = true
  · rw [if_pos hend, if_pos (by simpa [or_assoc] using hend)]
    rfl
  · rw [if_neg hend, if_neg (by simpa [or_assoc] using hend)]

/-- At the end of the text a script is over, as with too many problems; a closing brace that nothing
opened is skipped. -/
theorem on_topLevel_succ (statement : StmtParser) (s : State) (fuel : Nat) :
    (topLevel statement (fuel + 1)).on s =
      if s.kind = .endOfInput ∨ s.problems.isFull = true then (some [], s)
      else if s.kind = .symbol .rightBrace then
        (topLevel statement fuel).on (s.reporting .strayBrace).taken
      else (andRest statement (topLevel statement fuel)).on s := by
  let further : Workbook.Parser (List Stmt) := do
    if ← seesSymbol .rightBrace then
      report .strayBrace
      let _ ← take
      topLevel statement fuel
    else andRest statement (topLevel statement fuel)
  have hon : (topLevel statement (fuel + 1)).on s =
      (if (decide (s.kind = .endOfInput) || s.problems.isFull) = true then pure []
      else further : Workbook.Parser _).on s := rfl
  have hfurther : further.on s = if s.kind = .symbol .rightBrace then
      (topLevel statement fuel).on (s.reporting .strayBrace).taken
      else (andRest statement (topLevel statement fuel)).on s := by
    have hsees : (seesSymbol .rightBrace).on s =
        (some (decide (s.kind = .symbol .rightBrace)), s) := rfl
    show Parser.on (_ >>= _) s = _
    rw [on_bind, hsees]
    by_cases hbrace : s.kind = .symbol .rightBrace
    · simp only [hbrace, decide_true]
      rfl
    · simp only [hbrace, decide_false]
      rfl
  rw [hon]
  by_cases hend : s.kind = .endOfInput ∨ s.problems.isFull = true
  · rw [if_pos hend, if_pos (by simpa using hend)]
    rfl
  · rw [if_neg hend, if_neg (by simpa using hend), hfurther]

end Parser
end Script
end Workbook
