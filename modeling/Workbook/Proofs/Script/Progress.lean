/-
How the parser of scripts comes to an end.

A statement takes a token, or what is skipped in its place does (`consumes_statementOrSkip`).  A call
of a function inside another comes after a token (`alike_unrolled`), and so does each round of a loop
that goes on.
-/
import Workbook.Proofs.Parser.Progress
import Workbook.Proofs.Script.Growth

namespace Workbook
namespace Script
namespace Parser

open Workbook.Parser
open Token (Kind Symbol)

/-- An operand with one operator in front of it or none; `same` reads what comes after `++` or `--`. -/
def unaryRound (expr : ExprParser) (block : BlockParser) (deeper same : ExprParser) : ExprParser := do
  let kind ← peek
  match signOp kind, stepOp kind with
  | some op, _ =>
    let first ← take
    let operand ← nested deeper
    return .unary (first.merge operand.span) op operand
  | none, some increment =>
    let first ← take
    let target ← same
    checkTarget target
    return .update (first.merge target.span) increment true target
  | none, none => suffixed expr block

theorem unary_succ (expr : ExprParser) (block : BlockParser) (deeper : ExprParser) (steps : Nat) :
    unary expr block deeper (steps + 1) =
      unaryRound expr block deeper (unary expr block deeper steps) := rfl

theorem rest_checkTarget (e : Expr) (s : State) : ((checkTarget e).on s).2.rest = s.rest := by
  unfold checkTarget
  split <;> rfl

/-- A statement; `inner` reads those in it. -/
def statementRound (expr : ExprParser) (inner : StmtParser) : StmtParser := do
  let s ← get
  match s.kind with
  | .word .letWord => declared .variable expr
  | .word .constWord => declared .constant expr
  | .word .functionWord =>
    if (s.kindAt 1).isName then return .function (← function (braced inner))
    else expressionStatement expr
  | .word .ifWord => branch expr inner
  | .word .whileWord => whileLoop expr inner
  | .word .forWord => forLoop expr inner
  | .word .returnWord => returning expr
  | .word .breakWord => jump "break" .breaks
  | .word .continueWord => jump "continue" .continues
  | .word .throwWord => throwing expr
  | .symbol .leftBrace =>
    let first ← here
    let body ← braced inner
    return .block (← since first) body
  | .symbol .semicolon => return .empty (← take)
  | _ => expressionStatement expr

theorem statement_succ (expr : ExprParser) (fuel : Nat) :
    statement expr (fuel + 1) = statementRound expr (statement expr fuel) := rfl

section Kinds

variable {k : Kind}

theorem ne_end_of_signOp {op : UnaryOp} (h : signOp k = some op) : k ≠ .endOfInput := by
  rintro rfl
  cases h

theorem ne_end_of_stepOp {increment : Bool} (h : stepOp k = some increment) : k ≠ .endOfInput := by
  rintro rfl
  cases h

theorem ne_end_of_declarator {how : Declarator} (h : declarator? k = some how) :
    k ≠ .endOfInput := by
  rintro rfl
  cases h

end Kinds

section Alike

variable {n d : Nat} {k : Kind} {expr expr' power power' operand operand' deeper deeper' : ExprParser}
  {block block' : BlockParser} {statement statement' : StmtParser}

/-! ## Functions and loops -/

instance [h : Alike n d block block'] : Alike n d (functionBody block) (functionBody block') where
  same s hs := by
    obtain ⟨hsame, hended⟩ := h.same (s.within 0) ⟨hs.ended, hs.few, hs.depth⟩
    rw [on_functionBody, on_functionBody, hsame]
    exact ⟨rfl, hended⟩

instance [h : Alike n d statement statement'] :
    Alike n d (loopBody statement) (loopBody statement') where
  same s hs := by
    obtain ⟨hsame, hended⟩ := h.same (s.within (s.loops + 1)) ⟨hs.ended, hs.few, hs.depth⟩
    rw [on_loopBody, on_loopBody, hsame]
    exact ⟨rfl, hended⟩

theorem alike_function [block.Grows] [Alike n d block block'] :
    Alike (n + 1) d (function block) (function block') := by
  unfold function
  refine .bind inferInstance fun first => .behind (.expectWord _) inferInstance fun _ =>
    .bind inferInstance fun k => ?_
  split <;> infer_instance

instance : Alike n d arrowParameters arrowParameters := by
  unfold arrowParameters
  infer_instance

instance [expr.Grows] [block.Grows] [Alike n d expr expr'] [Alike n d block block'] :
    Alike n d (arrowBody expr block) (arrowBody expr' block') := by
  unfold arrowBody
  infer_instance

theorem alike_arrow [expr.Grows] [block.Grows] [Alike n d expr expr'] [Alike n d block block'] :
    Alike (n + 1) d (arrow expr block) (arrow expr' block') := by
  rw [arrow_eq, arrow_eq]
  exact .bind inferInstance fun first => .bind inferInstance fun ps =>
    .behind (.expectSymbol _) inferInstance fun _ => inferInstance

instance : Alike n d seesArrow seesArrow := .still fun s => by
  unfold seesArrow
  rw [on_bind]
  show (Parser.on _ s).2.rest = s.rest
  split <;> rfl

/-! ## Operands -/

section

variable [expr.Grows] [block.Grows] [ha : Alike n d expr expr'] [hb : Alike n d block block']

instance (k : Name) : Alike n d (entryValue expr block k) (entryValue expr' block' k) := by
  unfold entryValue
  infer_instance

instance : Alike n d (entry expr block) (entry expr' block') := by
  unfold entry
  infer_instance

theorem alike_primary : Alike (n + 1) d (primary expr block) (primary expr' block') := by
  unfold primary
  refine .peek fun k => ?_
  split
  case h_9 => exact (Alike.bind alike_function fun _ => inferInstance).at_kind
  case h_13 => exact Alike.at_kind inferInstance
  all_goals exact .take (by simp) fun _ => inferInstance

theorem alike_suffixes (fuel : Nat) (e : Expr) :
    Alike (n + 1) d (suffixes expr fuel e) (suffixes expr' fuel e) := by
  induction fuel generalizing e with
  | zero => unfold suffixes; infer_instance
  | succ fuel ih =>
    have hrest (e : Expr) : Alike n d (suffixes expr fuel e) (suffixes expr' fuel e) :=
      (ih e).mono (Nat.le_succ n)
    unfold suffixes
    refine .peek fun k => ?_
    split
    · exact .take (by simp) fun _ => inferInstance
    · exact .take (by simp) fun _ => inferInstance
    · exact .take (by simp) fun _ => inferInstance
    · exact Alike.at_kind inferInstance

/-- What comes after an operand, on its line. -/
instance (e : Expr) : Alike n d (checkTarget e) (checkTarget e) := .still (rest_checkTarget e)

instance (e : Expr) : Alike n d (stepped e) (stepped e) := by
  refine .get fun s => ?_
  split
  · rename_i increment hstep
    split
    · exact .taking (ne_end_of_stepOp hstep) fun _ => inferInstance
    · exact Alike.at_kind inferInstance
  · exact Alike.at_kind inferInstance

theorem alike_suffixed : Alike (n + 1) d (suffixed expr block) (suffixed expr' block') := by
  rw [suffixed_eq, suffixed_eq]
  exact .bind alike_primary fun e => .bind inferInstance fun s =>
    .bind (alike_suffixes s.rest.length e) fun _ => inferInstance

/-- What an operator is in front of is one level deeper, except behind `++` and `--`. -/
theorem alike_unaryRound {same same' : ExprParser} [deeper.Grows] [same.Grows]
    (hd : d < maxNesting → Alike n (d + 1) deeper deeper') (hs : Alike n d same same') :
    Alike (n + 1) d (unaryRound expr block deeper same) (unaryRound expr' block' deeper' same') := by
  have hnested : Alike n d (nested deeper) (nested deeper') := .nested_of_lt hd
  refine .peek fun k => ?_
  split
  · rename_i hsign
    exact .take (ne_end_of_signOp hsign) fun _ => inferInstance
  · rename_i hstep
    exact .take (ne_end_of_stepOp hstep) fun _ => inferInstance
  · exact alike_suffixed.at_kind

end

/-! ## Operators -/

/-- What stands behind `**` is one level deeper. -/
theorem alike_power [operand.Grows] [deeper.Grows] (ho : Alike (n + 1) d operand operand')
    (hd : d < maxNesting → Alike n (d + 1) deeper deeper') :
    Alike (n + 1) d (Parser.power operand deeper) (Parser.power operand' deeper') := by
  have hnested : Alike n d (nested deeper) (nested deeper') := .nested_of_lt hd
  unfold Parser.power
  refine .bind ho fun base => .after (.eats (by simp)) inferInstance (fun b hb => ?_) fun b hb => ?_
  · rw [hb]
    infer_instance
  · rw [if_neg hb, if_neg hb]
    infer_instance

instance [operand.Grows] [Alike n d operand operand'] (table : Symbol → Option BinaryOp) :
    Alike n d (joinedBy table operand) (joinedBy table operand') := by
  unfold joinedBy
  infer_instance

instance [operand.Grows] [Alike n d operand operand'] (s : Symbol) (op : LogicalOp) :
    Alike n d (logicallyJoinedBy s op operand) (logicallyJoinedBy s op operand') := by
  unfold logicallyJoinedBy
  infer_instance

instance [power.Grows] [Alike n d power power'] : Alike n d (coalesced power) (coalesced power') := by
  unfold coalesced
  infer_instance

section

variable [expr.Grows] [power.Grows] [block.Grows] [ha : Alike n d expr expr']
  [hp : Alike (n + 1) d power power'] [hb : Alike n d block block']

theorem alike_conditional : Alike (n + 1) d (conditional expr power) (conditional expr' power') := by
  refine .bind inferInstance fun condition =>
    .after (.eats (by simp)) inferInstance (fun b hb => ?_) fun b hb => ?_
  · rw [if_pos hb, if_pos hb]
    infer_instance
  · rw [if_neg hb, if_neg hb]
    infer_instance

theorem alike_assignment :
    Alike (n + 1) d (assignment expr power block) (assignment expr' power' block') := by
  unfold assignment
  refine .bind inferInstance fun b => ?_
  split
  · exact alike_arrow
  · refine .bind alike_conditional fun target => .peek fun k => ?_
    split
    · split
      · exact Alike.at_kind inferInstance
      · exact .past (rest_checkTarget target) fun _ => .take (by simp) fun _ => inferInstance
    · exact Alike.at_kind inferInstance

end

/-! ## Statements -/

instance (fuel : Nat) (moved : Bool) : Alike n d (skip fuel moved) (skip fuel moved) := by
  induction fuel generalizing moved with
  | zero => unfold skip; infer_instance
  | succ fuel ih =>
    unfold skip
    refine .peek fun k => ?_
    split
    · exact Alike.at_kind inferInstance
    · exact .taking (by simp) fun _ => inferInstance
    · rename_i hk _
      split
      · exact Alike.at_kind inferInstance
      · exact .taking hk fun _ => inferInstance

instance (ahead : Nat) : Alike n d (skipBad ahead) (skipBad ahead) := by
  unfold skipBad
  infer_instance

instance [statement.Grows] [Alike n d statement statement'] :
    Alike n d (statementOrSkip statement) (statementOrSkip statement') := by
  unfold statementOrSkip
  refine .bind inferInstance fun s => .bind inferInstance fun o => ?_
  cases o <;> infer_instance

instance : Alike n d endStatement endStatement := by
  unfold endStatement
  infer_instance

instance [statement.Grows] [Alike n d statement statement'] (fuel : Nat) :
    Alike n d (statements statement fuel) (statements statement' fuel) := by
  induction fuel with
  | zero => unfold statements; infer_instance
  | succ fuel ih => unfold statements; infer_instance

theorem alike_braced [statement.Grows] [Alike n d statement statement'] :
    Alike (n + 1) d (braced statement) (braced statement') :=
  .behind (.expectSymbol _) inferInstance fun _ => inferInstance

instance [statement.Grows] [Alike n d statement statement'] :
    Alike n d (braced statement) (braced statement') :=
  alike_braced.mono (Nat.le_succ n)

section

variable [expr.Grows] [statement.Grows] [ha : Alike n d expr expr']
  [hs : Alike n d statement statement']

theorem alike_declaration (how : Declarator) (hk : k ≠ .endOfInput) :
    AlikeAt k n d (declaration how expr) (declaration how expr') :=
  .taking hk fun _ => inferInstance

instance : Alike n d (condition expr) (condition expr') := by
  unfold condition
  infer_instance

instance (close : Symbol) : Alike n d (upTo close expr) (upTo close expr') := by
  unfold upTo
  infer_instance

instance : Alike n d (loopStart expr) (loopStart expr') := by
  refine .peek fun k => ?_
  split
  · rename_i hhow
    exact .bind (alike_declaration _ (ne_end_of_declarator hhow)) fun _ => inferInstance
  · exact Alike.at_kind inferInstance

/-- Behind the word that begins a loop fewer tokens are ahead. -/
theorem alike_forLoop (hk : k ≠ .endOfInput) :
    AlikeAt k (n + 1) d (forLoop expr statement) (forLoop expr' statement') := by
  refine .take hk fun first => .bind inferInstance fun _ => .get fun s => ?_
  split
  · rename_i hhow _
    exact .taking (ne_end_of_declarator hhow) fun _ => inferInstance
  · exact Alike.at_kind (.bind inferInstance fun start => .bind inferInstance fun _ => inferInstance)

end

theorem alike_returning [expr.Grows] [Alike n d expr expr'] (hk : k ≠ .endOfInput) :
    AlikeAt k n d (returning expr) (returning expr') := by
  refine .taking hk fun first => .bind inferInstance fun s => ?_
  extract_lets
  infer_instance

/-- A statement whose first token does not tell it from an expression. -/
instance [expr.Grows] [Alike n d expr expr'] :
    Alike n d (expressionStatement expr) (expressionStatement expr') := by
  unfold expressionStatement
  infer_instance

/-- The statements in a statement come after a token of it. -/
theorem alike_statementRound [expr.Grows] [statement.Grows] [he : Alike (n + 1) d expr expr']
    [hs : Alike n d statement statement'] :
    Alike (n + 1) d (statementRound expr statement) (statementRound expr' statement') := by
  have hexpr : Alike n d expr expr' := he.mono (Nat.le_succ n)
  refine .get fun s => ?_
  split
  -- declarations
  case h_1 h => exact .bind (alike_declaration _ (by simp [h])) fun _ => inferInstance
  case h_2 h => exact .bind (alike_declaration _ (by simp [h])) fun _ => inferInstance
  -- a function, or an expression where no name is behind the word
  case h_3 h =>
    split
    · exact Alike.at_kind (.bind alike_function fun _ => inferInstance)
    · exact Alike.at_kind inferInstance
  -- branches and loops
  case h_4 h => exact .take (by simp [h]) fun _ => inferInstance
  case h_5 h => exact .take (by simp [h]) fun _ => inferInstance
  case h_6 h => exact alike_forLoop (by simp [h])
  -- what leaves a function or a loop
  case h_7 h => exact alike_returning (by simp [h])
  case h_8 h => exact .taking (by simp [h]) fun _ => inferInstance
  case h_9 h => exact .taking (by simp [h]) fun _ => inferInstance
  case h_10 h => exact .taking (by simp [h]) fun _ => inferInstance
  -- a block, a semicolon, and any other expression
  case h_11 h => exact (Alike.bind inferInstance fun _ => .bind alike_braced fun _ => inferInstance).at_kind
  case h_12 h => exact .taking (by simp [h]) fun _ => inferInstance
  case h_13 h => exact Alike.at_kind inferInstance

end Alike

/-! ## Recursion -/

/-- The functions of the parser that call each other: an expression one level deeper, a power, an
operand and a statement. -/
structure Functions where
  expr : ExprParser
  power : ExprParser
  operand : ExprParser
  statement : StmtParser

/-- The functions, with these for the ones that they call. -/
def Functions.again (f : Functions) : Functions :=
  let block := braced f.statement
  let operand := unaryRound f.expr block f.operand f.operand
  let power := Parser.power operand f.power
  let expr := nested (assignment f.expr power block)
  ⟨expr, power, operand, statementRound expr f.statement⟩

/-- The functions, which call each other at most `k` deep; `out` is done in place of a deeper call. -/
def Functions.unrolled (out : Functions) : Nat → Functions
  | 0 => out
  | k + 1 => (out.unrolled k).again

/-- What is read behind an operator of a level. -/
def below : Nat → Level
  | 0 => ⟨reject (.tooDeep maxNesting), reject (.tooDeep maxNesting), reject (.tooDeep maxNesting)⟩
  | m + 1 => level m

theorem grows_below (m : Nat) : (below m).power.Grows ∧ (below m).operand.Grows := by
  have hreject : (reject (.tooDeep maxNesting) : ExprParser).Grows := inferInstance
  cases m with
  | zero => exact ⟨hreject, hreject⟩
  | succ m => exact (grows_level m).2

theorem power_level (m : Nat) :
    (level m).power = Parser.power (level m).operand (below m).power := by
  cases m <;> rfl

/-- An operand of a level with at most so many `++` and `--` in front of it. -/
def operandOf (m steps : Nat) : ExprParser :=
  unary (level m).expr (block (level m).expr) (below m).operand steps

theorem operand_level (m : Nat) :
    (level m).operand = (do operandOf m ((← get).rest.length + 1)) := by
  cases m <;> rfl

/-- Where at most `n` tokens are ahead, the functions do what the parsers of a level do. -/
structure Functions.Like (f : Functions) (n d m : Nat) : Prop where
  expr : Alike n d (level m).expr f.expr
  power : Alike n d (level m).power f.power
  operand : ∀ i ≤ n, ∀ steps, i ≤ steps → Alike i d (operandOf m steps) f.operand
  statement : ∀ i ≤ n, ∀ fuel, i ≤ fuel →
    Alike i d (Parser.statement (level m).expr fuel) f.statement

namespace Functions.Like

variable {f : Functions} {n d m : Nat}

theorem level_operand (h : f.Like n d m) : Alike n d (level m).operand f.operand := by
  rw [operand_level]
  exact .ahead fun i hi => h.operand i hi (i + 1) (Nat.le_succ i)

theorem block (h : f.Like n d m) : Alike n d (block (level m).expr) (braced f.statement) := by
  have : (level m).expr.Grows := (grows_level m).1
  refine .ahead (f := fun i => braced (Parser.statement (level m).expr i)) fun i hi => ?_
  have := h.statement i hi i (Nat.le_refl i)
  infer_instance

theorem mono {k : Nat} (h : f.Like n d m) (hk : k ≤ n) : f.Like k d m where
  expr := h.expr.mono hk
  power := h.power.mono hk
  operand i hi := h.operand i (Nat.le_trans hi hk)
  statement i hi := h.statement i (Nat.le_trans hi hk)

end Functions.Like

section Again

variable {f : Functions} {n d m : Nat} (h : ∀ {d m}, d + m = maxNesting → f.Like n d m)
include h

theorem alike_operand_again (hd : d + m = maxNesting) {i steps : Nat} (hi : i ≤ n + 1)
    (hsteps : i ≤ steps) : Alike i d (operandOf m steps) f.again.operand := by
  obtain _ | i := i
  · exact .zero
  obtain _ | steps := steps
  · omega
  have hlike := (h hd).mono (Nat.le_of_succ_le_succ hi)
  have := hlike.expr
  have := hlike.block
  have : (level m).expr.Grows := (grows_level m).1
  have : (below m).operand.Grows := (grows_below m).2
  unfold operandOf
  rw [unary_succ]
  refine alike_unaryRound (fun hlt => ?_) (hlike.operand i (Nat.le_refl i) steps (by omega))
  cases m with
  | zero => omega
  | succ m => exact ((h (by omega)).mono (Nat.le_of_succ_le_succ hi)).level_operand

theorem alike_power_again (hd : d + m = maxNesting) :
    Alike (n + 1) d (level m).power f.again.power := by
  have : (level m).operand.Grows := (grows_level m).2.2
  have : (below m).power.Grows := (grows_below m).1
  have hoperand : Alike (n + 1) d (level m).operand f.again.operand := by
    rw [operand_level]
    exact .ahead fun i hi => alike_operand_again h hd hi (Nat.le_succ i)
  rw [power_level]
  refine alike_power hoperand fun hlt => ?_
  cases m with
  | zero => omega
  | succ m => exact (h (by omega)).power

theorem alike_expr_again (hd : d + m = maxNesting) :
    Alike (n + 1) d (level m).expr f.again.expr := by
  cases m with
  | zero => exact .tooDeep (by omega)
  | succ m =>
    have : (level m).expr.Grows := (grows_level m).1
    have : (level m).power.Grows := (grows_level m).2.1
    have hlike : f.Like n (d + 1) m := h (by omega)
    have := hlike.expr
    have := hlike.block
    have : Alike (n + 1) (d + 1) (level m).power f.again.power := alike_power_again h (by omega)
    have hassignment : Alike (n + 1) (d + 1)
        (assignment (level m).expr (level m).power (block (level m).expr))
        (assignment f.expr f.again.power (braced f.statement)) := alike_assignment
    exact .nested_of_lt fun _ => hassignment

theorem alike_statement_again (hd : d + m = maxNesting) {i fuel : Nat} (hi : i ≤ n + 1)
    (hfuel : i ≤ fuel) :
    Alike i d (statement (level m).expr fuel) f.again.statement := by
  obtain _ | i := i
  · exact .zero
  obtain _ | fuel := fuel
  · omega
  have : (level m).expr.Grows := (grows_level m).1
  have : Alike (i + 1) d (level m).expr f.again.expr := (alike_expr_again h hd).mono hi
  have := (h hd).statement i (by omega) fuel (by omega)
  have hround : Alike (i + 1) d (statementRound (level m).expr (statement (level m).expr fuel))
      (statementRound f.again.expr f.statement) := alike_statementRound
  exact hround

/-- The functions are called behind a token, or one level deeper. -/
theorem Functions.Like.again (hd : d + m = maxNesting) : f.again.Like (n + 1) d m where
  expr := alike_expr_again h hd
  power := alike_power_again h hd
  operand _ hi _ := alike_operand_again h hd hi
  statement _ hi _ := alike_statement_again h hd hi

end Again

/-- A function that is called inside another has at least a token less ahead, so no call is deeper than
there are tokens ahead. -/
theorem like_unrolled (out : Functions) (k : Nat) {d m : Nat} (hd : d + m = maxNesting) :
    (out.unrolled k).Like k d m := by
  induction k generalizing d m with
  | zero =>
    refine ⟨.zero, .zero, fun i hi _ _ => ?_, fun i hi _ _ => ?_⟩
    · exact Alike.zero.mono hi
    · exact Alike.zero.mono hi
  | succ k ih => exact .again ih hd

/-! ### The end of the tokens -/

section

variable {expr : ExprParser} [expr.Grows] [he : ∀ n d, Alike n d expr expr]

instance (n d fuel : Nat) : Alike n d (statement expr fuel) (statement expr fuel) := by
  induction fuel generalizing n with
  | zero => unfold statement; infer_instance
  | succ fuel ih =>
    rw [statement_succ]
    cases n with
    | zero => exact .zero
    | succ n => exact alike_statementRound

instance (n d : Nat) : Alike n d (block expr) (block expr) := by
  unfold block
  infer_instance

theorem alike_unary {deeper : ExprParser} [deeper.Grows] (hd : ∀ n d, Alike n d deeper deeper)
    (n d steps : Nat) :
    Alike n d (unary expr (block expr) deeper steps) (unary expr (block expr) deeper steps) := by
  cases n with
  | zero => exact .zero
  | succ n =>
    induction steps with
    | zero => exact alike_suffixed
    | succ steps ih => exact alike_unaryRound (fun _ => hd n (d + 1)) (ih.mono (Nat.le_succ n))

end

theorem alike_below {m : Nat} (he : ∀ n d, Alike n d (level m).expr (level m).expr)
    (hp : ∀ n d, Alike n d (below m).power (below m).power)
    (ho : ∀ n d, Alike n d (below m).operand (below m).operand) :
    (∀ n d, Alike n d (level m).power (level m).power) ∧
      ∀ n d, Alike n d (level m).operand (level m).operand := by
  have : (level m).expr.Grows := (grows_level m).1
  have : (level m).operand.Grows := (grows_level m).2.2
  obtain ⟨_, _⟩ := grows_below m
  have hsteps (n d steps : Nat) : Alike n d (operandOf m steps) (operandOf m steps) :=
    alike_unary ho n d steps
  have hoperand (n d : Nat) : Alike n d (level m).operand (level m).operand := by
    rw [operand_level]
    exact .bind inferInstance fun s => hsteps n d _
  refine ⟨fun n d => ?_, hoperand⟩
  rw [power_level]
  cases n with
  | zero => exact .zero
  | succ n => exact alike_power (hoperand (n + 1) d) fun _ => hp n (d + 1)

/-- The parsers of a level leave the token that marks the end. -/
theorem alike_level (m : Nat) : (∀ n d, Alike n d (level m).expr (level m).expr) ∧
    (∀ n d, Alike n d (level m).power (level m).power) ∧
    ∀ n d, Alike n d (level m).operand (level m).operand := by
  induction m with
  | zero =>
    have hreject (n d : Nat) : Alike n d (reject (.tooDeep maxNesting) : ExprParser)
        (reject (.tooDeep maxNesting)) := inferInstance
    exact ⟨hreject, alike_below hreject hreject hreject⟩
  | succ m ih =>
    obtain ⟨hexpr, hpower, hoperand⟩ := ih
    have : (level m).expr.Grows := (grows_level m).1
    have : (level m).power.Grows := (grows_level m).2.1
    have hnext (n d : Nat) : Alike n d (level (m + 1)).expr (level (m + 1)).expr := by
      have hassignment : Alike n (d + 1)
          (assignment (level m).expr (level m).power (block (level m).expr))
          (assignment (level m).expr (level m).power (block (level m).expr)) := by
        cases n with
        | zero => exact .zero
        | succ n => exact alike_assignment
      exact inferInstanceAs (Alike n d (nested (assignment _ _ _)) (nested _))
    exact ⟨hnext, alike_below hnext hpower hoperand⟩

end Parser
end Script
end Workbook
