/-
The parsers come to an end (`parsers_end`).

No parser goes back in the tokens.  A statement takes a token, or what is skipped in its place does.
Each round of a loop that goes on takes a token, so the number of tokens ahead, which bounds the loop,
does not end it.  Neither does a bound on how deep the functions call each other.
-/
import Workbook.Proofs.Formula.Progress
import Workbook.Proofs.Parser.Account
import Workbook.Proofs.Script.Progress

namespace Workbook
namespace Script
namespace Parser

open Workbook.Parser
open Token (Kind Symbol)

/-! ## What takes a token -/

section Consumes

variable {k : Kind} {expr power operand deeper : ExprParser} {block : BlockParser}
  {statement : StmtParser}

theorem consumes_function [block.Grows] : Advances (function block) := by
  unfold function
  refine .later fun first => .bind (Consumes.expectWord _) (fun _ => ?_) fun _ h => absurd trivial h
  refine .bind inferInstance fun k => ?_
  split <;> infer_instance

theorem consumes_arrow [expr.Grows] [block.Grows] : Advances (arrow expr block) := by
  rw [arrow_eq]
  exact .later fun first => .later fun ps => .first (.expectSymbol _)

theorem consumes_primary [expr.Grows] [block.Grows] : Advances (primary expr block) := by
  unfold primary
  refine .peek fun k => ?_
  split
  case h_9 => exact (Consumes.first consumes_function).at_kind
  case h_13 => exact Consumes.reject.at_kind
  all_goals exact .take (by simp) fun _ => inferInstance

theorem consumes_unary [expr.Grows] [block.Grows] [deeper.Grows] (steps : Nat) :
    Advances (unary expr block deeper steps) := by
  have hsuffixed : Advances (suffixed expr block) := by
    rw [suffixed_eq]
    exact .first consumes_primary
  cases steps with
  | zero => exact hsuffixed
  | succ steps =>
    rw [unary_succ]
    refine .peek fun k => ?_
    split
    · rename_i hsign
      exact .take (ne_end_of_signOp hsign) fun _ => inferInstance
    · rename_i hstep
      exact .take (ne_end_of_stepOp hstep) fun _ => inferInstance
    · exact hsuffixed.at_kind

theorem consumes_assignment [expr.Grows] [power.Grows] [block.Grows] (hp : Advances power) :
    Advances (assignment expr power block) := by
  have hcoalesced : Advances (coalesced power) := by
    unfold coalesced logicallyJoinedBy joinedBy
    exact .operands <| .operands <| .operands <| .operands <| .operands <| .operands <| .operands hp
  have hconditional : Advances (conditional expr power) := .first hcoalesced
  unfold assignment
  refine .later fun b => ?_
  split
  · exact consumes_arrow
  · refine .bind hconditional (fun target => .bind inferInstance fun k => ?_) fun _ h => absurd trivial h
    split
    · split <;> infer_instance
    · infer_instance

theorem consumes_level (m : Nat) :
    Advances (level m).expr ∧ Advances (level m).power ∧ Advances (level m).operand := by
  have hover {m : Nat} : Advances (level m).power ∧ Advances (level m).operand := by
    have : (level m).expr.Grows := (grows_level m).1
    have : (level m).operand.Grows := (grows_level m).2.2
    obtain ⟨_, _⟩ := grows_below m
    have hoperand : Advances (level m).operand := by
      rw [operand_level]
      exact .later fun s => consumes_unary _
    refine ⟨?_, hoperand⟩
    rw [power_level]
    exact .first hoperand
  cases m with
  | zero => exact ⟨.reject, hover⟩
  | succ m =>
    have : (level m).expr.Grows := (grows_level m).1
    have : (level m).power.Grows := (grows_level m).2.1
    exact ⟨.nested (consumes_assignment hover.1), hover⟩

theorem consumes_braced [statement.Grows] : Advances (braced statement) :=
  .first (.expectSymbol _)

theorem consumes_declaration [expr.Grows] (how : Declarator) (hk : k ≠ .endOfInput) :
    ConsumesAt k (fun _ => True) (declaration how expr) :=
  .take hk fun _ => inferInstance

theorem consumes_forLoop [expr.Grows] [statement.Grows] (hk : k ≠ .endOfInput) :
    ConsumesAt k (fun _ => True) (forLoop expr statement) := by
  refine .take hk fun first => .bind inferInstance fun _ => .bind inferInstance fun s => ?_
  split <;> infer_instance

theorem consumes_returning [expr.Grows] (hk : k ≠ .endOfInput) :
    ConsumesAt k (fun _ => True) (returning expr) := by
  refine .take hk fun first => .bind inferInstance fun s => ?_
  extract_lets
  infer_instance

/-- A statement takes a token. -/
theorem consumes_statement [expr.Grows] (he : Advances expr) (fuel : Nat) :
    Advances (Parser.statement expr fuel) := by
  cases fuel with
  | zero => exact .later fun k => .reject
  | succ fuel =>
    have hexpression : Advances (expressionStatement expr) := .first he
    rw [statement_succ]
    refine .get fun s => ?_
    split
    -- declarations
    case h_1 h => exact .first (consumes_declaration _ (by simp [h])) fun _ => inferInstance
    case h_2 h => exact .first (consumes_declaration _ (by simp [h])) fun _ => inferInstance
    -- a function, or an expression where no name is behind the word
    case h_3 h =>
      split
      · exact (Consumes.first consumes_function).at_kind
      · exact hexpression.at_kind
    -- branches and loops
    case h_4 h => exact .take (by simp [h]) fun _ => inferInstance
    case h_5 h => exact .take (by simp [h]) fun _ => inferInstance
    case h_6 h => exact consumes_forLoop (by simp [h])
    -- what leaves a function or a loop
    case h_7 h => exact consumes_returning (by simp [h])
    case h_8 h => exact .take (by simp [h]) fun _ => inferInstance
    case h_9 h => exact .take (by simp [h]) fun _ => inferInstance
    case h_10 h => exact .take (by simp [h]) fun _ => inferInstance
    -- a block, a semicolon, and any other expression
    case h_11 h => exact Consumes.at_kind (.later fun first => .first consumes_braced)
    case h_12 h => exact .take (by simp [h]) fun _ => inferInstance
    case h_13 h => exact hexpression.at_kind

/-! ## What is skipped -/

theorem on_skip_some (fuel : Nat) (moved : Bool) (s : State) :
    ((skip fuel moved).on s).1 = some () := by
  induction fuel generalizing moved s with
  | zero => rfl
  | succ fuel ih =>
    unfold skip
    rw [on_bind]
    show (Parser.on _ s).1 = some ()
    split
    · rfl
    · rfl
    · split
      · rfl
      · exact ih true s.taken

/-- Where no token has been skipped yet, one is. -/
theorem rest_skip_lt (fuel : Nat) {s : State} (hk : s.kind ≠ .endOfInput) :
    ((skip (fuel + 1) false).on s).2.rest.length < s.rest.length := by
  have hlength := s.length_taken hk
  unfold skip
  rw [on_bind]
  show (Parser.on _ s).2.rest.length < _
  split
  · exact absurd ‹_› hk
  · show s.taken.rest.length < _
    omega
  · have hle := (Grows.rest (p := skip fuel true) s.taken).length_le
    show ((skip fuel true).on s.taken).2.rest.length < _
    omega

theorem on_skipBad (ahead : Nat) (s : State) : (skipBad ahead).on s =
    (some none, ((skip s.rest.length (s.rest.length < ahead)).on s).2) := by
  unfold skipBad
  rw [on_bind]
  show Parser.on (skip _ _ >>= _) s = _
  rw [on_bind, on_skip_some]
  rfl

/-- What is skipped after a bad statement is a token at least, where the statement has not taken one. -/
theorem rest_skipBad_lt {s s' : State} (hsuffix : s'.rest <:+ s.rest) (hk : s.kind ≠ .endOfInput) :
    ((skipBad s.rest.length).on s').2.rest.length < s.rest.length := by
  rw [on_skipBad]
  by_cases hlt : s'.rest.length < s.rest.length
  · exact Nat.lt_of_le_of_lt (Grows.rest s').length_le hlt
  · have heq : s'.rest = s.rest := hsuffix.eq_of_length_le (Nat.le_of_not_lt hlt)
    have hk' : s'.kind ≠ .endOfInput := State.kind_of_rest heq ▸ hk
    rw [decide_eq_false hlt, s'.length_taken hk', ← heq]
    exact rest_skip_lt _ hk'

/-- A statement takes a token, or what is skipped in its place does. -/
theorem statementOrSkip_takes [statement.Grows] (hs : Advances statement) {s : State}
    (hk : s.kind ≠ .endOfInput) :
    ∃ o s', (statementOrSkip statement).on s = (some o, s') ∧ s'.rest.length < s.rest.length := by
  rw [on_statementOrSkip]
  have hsuffix := Grows.rest (p := statement) s
  cases h : statement.on s with
  | mk o s₁ =>
    rw [h] at hsuffix
    cases o with
    | some a => exact ⟨some a, s₁, rfl, hs h trivial⟩
    | none =>
      have hlt : ((skipBad s.rest.length).on s₁).2.rest.length < s.rest.length :=
        rest_skipBad_lt hsuffix hk
      rw [on_skipBad] at hlt
      exact ⟨none, _, on_skipBad s.rest.length s₁, hlt⟩

end Consumes

/-! ## Loops -/

/-- A member, an index or a call after an operand. -/
def suffixesRound (expr : ExprParser) : Expr → Workbook.Parser (Expr ⊕ Expr) :=
  Workbook.Parser.suffixesRound Expr.span (fun e k => .member (e.span.merge k.span) e k) .index .call
    expr (item expr)

/-- A token of a bad statement; `moved` says whether one has been skipped. -/
def skipRound (moved : Bool) : Workbook.Parser (Bool ⊕ Unit) := do
  match ← peek with
  | .endOfInput => return .inr ()
  | .symbol .semicolon =>
    let _ ← take
    return .inr ()
  | k =>
    if moved && isBoundary k then return .inr ()
    let _ ← take
    return .inl true

/-- A statement of a block, behind those that have been read. -/
def statementsRound (statement : StmtParser) (read : List Stmt) :
    Workbook.Parser (List Stmt ⊕ List Stmt) := do
  if (← seesSymbol .rightBrace) || (← sees .endOfInput) || (← get).problems.isFull then
    return .inr read
  let first ← statementOrSkip statement
  return .inl (read ++ first.toList)

/-- A statement of a source text, or a closing brace, behind the statements that have been read. -/
def topLevelRound (statement : StmtParser) (read : List Stmt) :
    Workbook.Parser (List Stmt ⊕ List Stmt) := do
  if (← sees .endOfInput) || (← get).problems.isFull then return .inr read
  if ← seesSymbol .rightBrace then
    report .strayBrace
    let _ ← take
    return .inl read
  else
    let first ← statementOrSkip statement
    return .inl (read ++ first.toList)

section Rounds

variable {n d : Nat} {expr : ExprParser} {statement : StmtParser}

theorem suffixes_unfolds (n : Nat) (e : Expr) : suffixes expr (n + 1) e =
    suffixesRound expr e >>= fun o => o.elim (suffixes expr n) pure := by
  unfold suffixesRound Workbook.Parser.suffixesRound
  rw [suffixes]
  simp only [bind_assoc]
  refine bind_congr fun k => ?_
  split <;> simp

theorem skip_unfolds (n : Nat) (moved : Bool) :
    skip (n + 1) moved = skipRound moved >>= fun o => o.elim (skip n) pure := by
  unfold skipRound
  rw [skip]
  simp only [bind_assoc]
  refine bind_congr fun k => ?_
  split
  · simp
  · simp
  · split
    · rename_i h
      simp [h]
    · rename_i h
      simp [h]

theorem statements_unfolds (n : Nat) (read : List Stmt) :
    (read ++ ·) <$> statements statement (n + 1) = statementsRound statement read >>= fun o =>
      o.elim (fun read => (read ++ ·) <$> statements statement n) pure := by
  unfold statementsRound
  simp only [statements, map_bind, bind_assoc]
  refine bind_congr fun brace => bind_congr fun ended => bind_congr fun s => ?_
  split <;> simp

theorem topLevel_unfolds (n : Nat) (read : List Stmt) :
    (read ++ ·) <$> topLevel statement (n + 1) = topLevelRound statement read >>= fun o =>
      o.elim (fun read => (read ++ ·) <$> topLevel statement n) pure := by
  unfold topLevelRound
  simp only [topLevel, map_bind, bind_assoc]
  refine bind_congr fun ended => bind_congr fun s => ?_
  split
  · simp
  · simp only [map_bind, bind_assoc]
    refine bind_congr fun brace => ?_
    split <;> simp

theorem consumes_skipRound (moved : Bool) : Consumes (·.isLeft = true) (skipRound moved) := by
  refine .peek fun k => ?_
  split
  · exact (Consumes.pure (by simp)).at_kind
  · exact .take (by simp) fun _ => inferInstance
  · rename_i hk _
    split
    · exact (Consumes.pure (by simp)).at_kind
    · exact .take hk fun _ => inferInstance

/-- Behind what has been read, one more statement has been read or skipped. -/
theorem takes_of_statementOrSkip [statement.Grows] (hs : Advances statement) {s s' : State}
    {read : List Stmt} {o : List Stmt ⊕ List Stmt} (hk : s.kind ≠ .endOfInput)
    (hon : Parser.on (do return .inl (read ++ (← statementOrSkip statement).toList)) s = (some o, s')) :
    s'.rest.length < s.rest.length := by
  obtain ⟨first, s₁, hfirst, hlt⟩ := statementOrSkip_takes hs hk
  rw [on_bind, hfirst] at hon
  cases hon
  exact hlt

theorem consumes_statementsRound [statement.Grows] (hs : Advances statement) (read : List Stmt) :
    Consumes (·.isLeft = true) (statementsRound statement read) := by
  intro s o s' hon hleft
  have hround : (statementsRound statement read).on s =
      (if ((decide (s.kind = .symbol .rightBrace) || decide (s.kind = .endOfInput)) ||
          s.problems.isFull) = true then pure (.inr read)
        else do return .inl (read ++ (← statementOrSkip statement).toList) : Parser _).on s := rfl
  rw [hround] at hon
  split at hon
  · cases hon
    cases hleft
  · rename_i hgoes
    exact takes_of_statementOrSkip hs (fun hk => hgoes (by simp [hk])) hon

theorem consumes_topLevelRound [statement.Grows] (hs : Advances statement) (read : List Stmt) :
    Consumes (·.isLeft = true) (topLevelRound statement read) := by
  intro s o s' hon hleft
  have hround : (topLevelRound statement read).on s =
      (if (decide (s.kind = .endOfInput) || s.problems.isFull) = true then pure (.inr read)
        else do
          if ← seesSymbol .rightBrace then
            report .strayBrace
            let _ ← take
            return .inl read
          else return .inl (read ++ (← statementOrSkip statement).toList) : Parser _).on s := rfl
  rw [hround] at hon
  split at hon
  · cases hon
    cases hleft
  · rename_i hgoes
    have hk : s.kind ≠ .endOfInput := fun hk => hgoes (by simp [hk])
    rw [on_bind] at hon
    change Parser.on (if decide (s.kind = .symbol .rightBrace) = true then _ else _) s = _ at hon
    split at hon
    · cases hon
      exact (s.reporting .strayBrace).rest_taken_lt hk
    · exact takes_of_statementOrSkip hs hk hon

theorem alike_skipRound (moved : Bool) : Alike n d (skipRound moved) (skipRound moved) := by
  refine .peek fun k => ?_
  split
  · exact Alike.at_kind inferInstance
  · exact .taking (by simp) fun _ => inferInstance
  · rename_i hk _
    split
    · exact Alike.at_kind inferInstance
    · exact .taking hk fun _ => inferInstance

theorem alike_statementsRound [statement.Grows] [Alike n d statement statement] (read : List Stmt) :
    Alike n d (statementsRound statement read) (statementsRound statement read) := by
  unfold statementsRound
  infer_instance

theorem alike_topLevelRound [statement.Grows] [Alike n d statement statement] (read : List Stmt) :
    Alike n d (topLevelRound statement read) (topLevelRound statement read) := by
  have hbrace : AlikeAt (.symbol .rightBrace) n d
      (do report .strayBrace; let _ ← take; return .inl read : Workbook.Parser (List Stmt ⊕ List Stmt))
      (do report .strayBrace; let _ ← take; return .inl read) :=
    .past (fun _ => rfl) fun _ => .taking (by simp) fun _ => inferInstance
  refine .bind inferInstance fun ended => .bind inferInstance fun s => ?_
  split
  · infer_instance
  · refine .sees hbrace ?_
    rw [if_neg Bool.false_ne_true]
    infer_instance

theorem alike_topLevel {statement' : StmtParser} [statement.Grows] [Alike n d statement statement']
    (fuel : Nat) : Alike n d (topLevel statement fuel) (topLevel statement' fuel) := by
  induction fuel with
  | zero => unfold topLevel; infer_instance
  | succ fuel ih =>
    unfold topLevel
    refine .bind inferInstance fun ended => .bind inferInstance fun s => ?_
    split
    · infer_instance
    · refine .sees (.past (fun _ => rfl) fun _ => .taking (by simp) fun _ => ih) ?_
      rw [if_neg Bool.false_ne_true, if_neg Bool.false_ne_true]
      infer_instance

end Rounds

end Parser
end Script

namespace Parser

open Token (Kind Keyword Symbol)

/-! ## The loops of the parsers -/

/-- The parsers of operators between operands. -/
inductive Operators : {α : Type} → Parser (Option (α → α → α)) → Prop
  -- of formulas
  | joining (table : Symbol → Option Formula.BinaryOp) : Operators (Formula.Parser.joining table)
  | chained : Operators Formula.Parser.chained
  | coalescing : Operators Formula.Parser.coalescing
  | word (w : Keyword) (op : Formula.BinaryOp) : Operators (Formula.Parser.wordOp w op)
  -- of scripts
  | joined (table : Symbol → Option Script.BinaryOp) :
    Operators (do return (← operator table).map Script.Parser.joined)
  | logical (s : Symbol) (op : Script.LogicalOp) :
    Operators (operator fun t => if t = s then some (Script.Parser.joinedLogically op) else none)

/-- The parsers of what a round of a loop reads. -/
inductive Inner : {α : Type} → Parser α → Prop
  | parameter : Inner name
  | item {α : Type} {p : Parser α} (h : Inner p) : Inner (item p)
  | operands {α : Type} {next : Parser (Option (α → α → α))} {p : Parser α} (hn : Operators next)
    (h : Inner p) : Inner (operands next p)
  -- of formulas
  | formula (m : Nat) : Inner (Formula.Parser.level m).expr
  | operand (m : Nat) : Inner (Formula.Parser.level m).operand
  | comparison {p : Formula.Parser.ExprParser} (h : Inner p) : Inner (Formula.Parser.comparison p)
  | entryOf (m : Nat) : Inner (Formula.Parser.entry (Formula.Parser.level m).expr)
  -- of scripts
  | expr (m : Nat) : Inner (Script.Parser.level m).expr
  | power (m : Nat) : Inner (Script.Parser.level m).power
  | entry (m : Nat) : Inner (Script.Parser.entry (Script.Parser.level m).expr
    (Script.Parser.block (Script.Parser.level m).expr))

/-- The loops of the parsers: what a round does, and the rounds up to a bound. -/
inductive Loop : {σ α : Type} → (σ → Parser (σ ⊕ α)) → (Nat → σ → Parser α) → Prop
  | operators {α : Type} {next : Parser (Option (α → α → α))} {p : Parser α} (hn : Operators next)
    (hp : Inner p) : Loop (chainRound next p) (chain next p)
  | separated {α : Type} {p : Parser α} (close : Symbol) (hp : Inner p) :
    Loop (separatedRound close p) fun n read => (read ++ ·) <$> separated close p n
  | holes {α : Type} {p : Parser α} (cause : Problem.Cause) (hp : Inner p) :
    Loop (holesRound p cause) fun n read => (read ++ ·) <$> holes p cause n
  | suffixesOf (m : Nat) : Loop (Formula.Parser.suffixesRound (Formula.Parser.level m).expr)
    (Formula.Parser.suffixes (Formula.Parser.level m).expr)
  | suffixes (m : Nat) : Loop (Script.Parser.suffixesRound (Script.Parser.level m).expr)
    (Script.Parser.suffixes (Script.Parser.level m).expr)
  | skip : Loop Script.Parser.skipRound Script.Parser.skip
  | statements (m fuel : Nat) :
    Loop (Script.Parser.statementsRound (Script.Parser.statement (Script.Parser.level m).expr fuel))
      fun n read => (read ++ ·) <$>
        Script.Parser.statements (Script.Parser.statement (Script.Parser.level m).expr fuel) n
  | topLevel (m fuel : Nat) :
    Loop (Script.Parser.topLevelRound (Script.Parser.statement (Script.Parser.level m).expr fuel))
      fun n read => (read ++ ·) <$>
        Script.Parser.topLevel (Script.Parser.statement (Script.Parser.level m).expr fuel) n

section Loops

variable {α σ : Type} {p : Parser α} {next : Parser (Option (α → α → α))}

theorem Operators.grows (h : Operators next) : next.Grows := by
  cases h <;> infer_instance

theorem Operators.alike (h : Operators next) (n d : Nat) : Alike n d next next := by
  cases h <;> infer_instance

/-- An operator is a token. -/
theorem Operators.consumes (h : Operators next) : Consumes (·.isSome = true) next := by
  cases h with
  | joining table => exact Formula.Parser.consumes_joining table
  | chained => exact Formula.Parser.consumes_chained
  | coalescing => exact Formula.Parser.consumes_coalescing
  | word w op => exact Formula.Parser.consumes_wordOp w op
  | joined table =>
    refine .bind (Consumes.operator table) inferInstance fun o ho => ?_
    cases o with
    | none => exact .pure (by simp)
    | some op => exact absurd rfl ho
  | logical s op => exact .operator _

theorem Inner.grows (h : Inner p) : p.Grows := by
  induction h with
  | operands hn _ ih =>
    have := hn.grows
    infer_instance
  | formula m => exact (Formula.Parser.grows_level m).1
  | operand m => exact (Formula.Parser.grows_level m).2
  | entryOf m =>
    have := (Formula.Parser.grows_level m).1
    infer_instance
  | expr m => exact (Script.Parser.grows_level m).1
  | power m => exact (Script.Parser.grows_level m).2.1
  | entry m =>
    have := (Script.Parser.grows_level m).1
    infer_instance
  | _ => infer_instance

theorem Inner.alike (h : Inner p) (n d : Nat) : Alike n d p p := by
  induction h with
  | parameter => infer_instance
  | item h ih =>
    have := h.grows
    infer_instance
  | operands hn h ih =>
    have := hn.grows
    have := hn.alike n d
    have := h.grows
    infer_instance
  | formula m => exact (Formula.Parser.alike_level m).1 n d
  | operand m => exact (Formula.Parser.alike_level m).2 n d
  | comparison h ih =>
    have := h.grows
    infer_instance
  | entryOf m =>
    have := (Formula.Parser.grows_level m).1
    have := (Formula.Parser.alike_level m).1 n d
    infer_instance
  | expr m => exact (Script.Parser.alike_level m).1 n d
  | power m => exact (Script.Parser.alike_level m).2.1 n d
  | entry m =>
    have := (Script.Parser.grows_level m).1
    have := (Script.Parser.alike_level m).1
    infer_instance

variable {round : σ → Parser (σ ⊕ α)} {bounded : Nat → σ → Parser α}

theorem Loop.unfolds (h : Loop round bounded) (n : Nat) (x : σ) :
    bounded (n + 1) x = round x >>= fun o => o.elim (bounded n) pure := by
  cases h with
  | operators => exact chain_unfolds _ n x
  | separated close => exact separated_unfolds close n x
  | holes cause => exact holes_unfolds cause n x
  | suffixesOf => exact Formula.Parser.suffixes_unfolds n x
  | suffixes => exact Script.Parser.suffixes_unfolds n x
  | skip => exact Script.Parser.skip_unfolds n x
  | statements => exact Script.Parser.statements_unfolds n x
  | topLevel => exact Script.Parser.topLevel_unfolds n x

/-- A round after which the loop goes on has taken a token. -/
theorem Loop.takes (h : Loop round bounded) (x : σ) : Consumes (·.isLeft = true) (round x) := by
  cases h with
  | operators hn hp =>
    have := hn.grows
    have := hp.grows
    exact consumes_chainRound hn.consumes x
  | separated close hp =>
    have := hp.grows
    exact consumes_separatedRound close x
  | holes cause hp =>
    have := hp.grows
    exact consumes_holesRound cause x
  | suffixesOf m =>
    have := (Formula.Parser.grows_level m).1
    exact consumes_suffixesRound x
  | suffixes m =>
    have := (Script.Parser.grows_level m).1
    exact consumes_suffixesRound x
  | skip => exact Script.Parser.consumes_skipRound x
  | statements m fuel =>
    have := (Script.Parser.grows_level m).1
    exact Script.Parser.consumes_statementsRound
      (Script.Parser.consumes_statement (Script.Parser.consumes_level m).1 fuel) x
  | topLevel m fuel =>
    have := (Script.Parser.grows_level m).1
    exact Script.Parser.consumes_topLevelRound
      (Script.Parser.consumes_statement (Script.Parser.consumes_level m).1 fuel) x

theorem Loop.alike (h : Loop round bounded) (n d : Nat) (x : σ) : Alike n d (round x) (round x) := by
  cases h with
  | operators hn hp =>
    have := hn.grows
    have := hn.alike n d
    have := hp.grows
    have := hp.alike n d
    exact alike_chainRound x
  | separated close hp =>
    have := hp.grows
    have := hp.alike n d
    exact alike_separatedRound close x
  | holes cause hp =>
    have := hp.grows
    have := hp.alike n d
    exact alike_holesRound cause x
  | suffixesOf m =>
    have := (Formula.Parser.grows_level m).1
    have := (Formula.Parser.alike_level m).1 n d
    exact alike_suffixesRound x
  | suffixes m =>
    have := (Script.Parser.grows_level m).1
    have := (Script.Parser.alike_level m).1 n d
    exact alike_suffixesRound x
  | skip => exact Script.Parser.alike_skipRound x
  | statements m fuel =>
    have := (Script.Parser.grows_level m).1
    have := (Script.Parser.alike_level m).1
    exact Script.Parser.alike_statementsRound x
  | topLevel m fuel =>
    have := (Script.Parser.grows_level m).1
    have := (Script.Parser.alike_level m).1
    exact Script.Parser.alike_topLevelRound x

/-- A loop comes to an end by its rounds: no bound from the number of tokens ahead on ends it. -/
theorem Loop.ends (h : Loop round bounded) {n : Nat} {x : σ} {s : State} (hs : s.Ended)
    (hn : s.rest.length ≤ n) : Ends round x s ((bounded n x).on s) :=
  ends_of_round h.unfolds h.takes
    (fun x s hs => ((h.alike s.rest.length s.depth x).same s ⟨hs, Nat.le_refl _, rfl⟩).2) hs hn

end Loops

/-! ## Whole texts -/

/-- The whole source text of a formula, read by these functions. -/
def wholeFormula (f : Formula.Parser.Functions) : Formula.Parser.ExprParser := do
  if ← sees .endOfInput then return .null (← here)
  let e ← f.expr
  if !(← sees .endOfInput) then report (.trailingInput (← peek))
  return e

/-- A whole script, read by these functions. -/
def wholeScript (f : Script.Parser.Functions) : Parser Script.Program := do
  let first ← here
  let ahead := (← get).rest.length
  let body ← Script.Parser.topLevel f.statement ahead
  return ⟨body, ← since first⟩

variable {tokens : List Token} {k : Nat}

theorem on_wholeFormula (h : (start tokens).Ended) (hk : tokens.length ≤ k)
    (out : Formula.Parser.Functions) : (wholeFormula (out.unrolled k)).on (start tokens) =
      Formula.Parser.whole.on (start tokens) := by
  have hlike : (out.unrolled k).Like k 0 maxNesting :=
    Formula.Parser.like_unrolled out k (Nat.zero_add maxNesting)
  have : Formula.Parser.expression.Grows := (Formula.Parser.grows_level maxNesting).1
  have : Alike k 0 Formula.Parser.expression (out.unrolled k).expr := hlike.expr
  have hwhole : Alike k 0 Formula.Parser.whole (wholeFormula (out.unrolled k)) := by
    unfold Formula.Parser.whole wholeFormula
    infer_instance
  exact (hwhole.same _ ⟨h, hk, rfl⟩).1

/-- The bound on a whole script is the number of the tokens that are ahead where it begins. -/
theorem on_topLevel_ahead (statement : Nat → Script.Parser.StmtParser) (s : State) :
    (do
      let first ← here
      let ahead := (← get).rest.length
      let body ← Script.Parser.topLevel (statement ahead) ahead
      return (⟨body, ← since first⟩ : Script.Program)).on s =
    (do
      let first ← here
      let body ← Script.Parser.topLevel (statement s.rest.length) s.rest.length
      return (⟨body, ← since first⟩ : Script.Program)).on s := by
  have hahead (f : Nat → Parser Script.Program) :
      (do f (← get).rest.length : Parser Script.Program).on s = (f s.rest.length).on s := rfl
  have hhere : here.on s = (some s.current.span, s) := rfl
  rw [on_bind, on_bind, hhere]
  exact hahead fun ahead => do
    let body ← Script.Parser.topLevel (statement ahead) ahead
    return ⟨body, ← since s.current.span⟩

theorem on_wholeScript (h : (start tokens).Ended) (hk : tokens.length ≤ k)
    (out : Script.Parser.Functions) : (wholeScript (out.unrolled k)).on (start tokens) =
      Script.Parser.whole.on (start tokens) := by
  have hlike : (out.unrolled k).Like k 0 maxNesting :=
    Script.Parser.like_unrolled out k (Nat.zero_add maxNesting)
  have : Script.Parser.expression.Grows := (Script.Parser.grows_level maxNesting).1
  have : Alike tokens.length 0 (Script.Parser.statement Script.Parser.expression tokens.length)
    (out.unrolled k).statement := hlike.statement tokens.length hk tokens.length (Nat.le_refl _)
  have hwhole : Alike tokens.length 0 (do
      let first ← here
      let body ← Script.Parser.topLevel
        (Script.Parser.statement Script.Parser.expression tokens.length) tokens.length
      return (⟨body, ← since first⟩ : Script.Program)) (do
      let first ← here
      let body ← Script.Parser.topLevel (out.unrolled k).statement tokens.length
      return (⟨body, ← since first⟩ : Script.Program)) :=
    .bind inferInstance fun first => .bind (Script.Parser.alike_topLevel _) fun _ => inferInstance
  have hsame := (hwhole.same (start tokens) ⟨h, Nat.le_refl _, rfl⟩).1
  calc (wholeScript (out.unrolled k)).on (start tokens)
      = _ := on_topLevel_ahead (fun _ => (out.unrolled k).statement) (start tokens)
    _ = _ := hsame
    _ = Script.Parser.whole.on (start tokens) :=
      (on_topLevel_ahead (Script.Parser.statement Script.Parser.expression) (start tokens)).symm

/-- The parsers of both languages come to an end on any tokens of which the last one, and no other,
marks the end.

No function goes back in the tokens.  A statement takes a token at least; if it cannot be read, it and
what is skipped after it do.  A round of a loop takes a token or leaves the loop: that of statements, of
a whole text or of a block, that of the tokens that are skipped, and those of parameters, of items, of
entries, of operators and of what comes after an operand.  So a loop comes to an end by its rounds,
whatever bound from the number of tokens ahead on is put on them.

What a text comes to does not depend on `out`, which is done in place of calls that are more than `k`
deep: no call is deeper than there are tokens. -/
theorem parsers_end :
    (∀ {l : Language} {α : Type} {p : Parser α} (s : State), Part l p →
      (p.on s).2.rest <:+ s.rest) ∧
    (∀ (m fuel : Nat) (s : State), s.kind ≠ .endOfInput →
      (∀ a s', (Script.Parser.statement (Script.Parser.level m).expr fuel).on s = (some a, s') →
        s'.rest.length < s.rest.length) ∧
      ∃ o s', (Script.Parser.statementOrSkip
          (Script.Parser.statement (Script.Parser.level m).expr fuel)).on s = (some o, s') ∧
        s'.rest.length < s.rest.length) ∧
    (∀ {σ α : Type} {round : σ → Parser (σ ⊕ α)} {bounded : Nat → σ → Parser α}, Loop round bounded →
      (∀ x y s s', (round x).on s = (some (.inl y), s') → s'.rest.length < s.rest.length) ∧
      ∀ n x s, s.Ended → s.rest.length ≤ n → Ends round x s ((bounded n x).on s)) ∧
    (∀ (tokens : List Token) (k : Nat), (start tokens).Ended → tokens.length ≤ k →
      (∀ out : Formula.Parser.Functions, (wholeFormula (out.unrolled k)).on (start tokens) =
        Formula.Parser.whole.on (start tokens)) ∧
      ∀ out : Script.Parser.Functions, (wholeScript (out.unrolled k)).on (start tokens) =
        Script.Parser.whole.on (start tokens)) := by
  refine ⟨fun s h => h.grows.rest s, fun m fuel s hk => ?_, fun h => ⟨fun x y s s' hon => ?_,
    fun n x s hs hn => h.ends hs hn⟩, fun tokens k h hk => ⟨on_wholeFormula h hk, on_wholeScript h hk⟩⟩
  · have : (Script.Parser.level m).expr.Grows := (Script.Parser.grows_level m).1
    have hstatement := Script.Parser.consumes_statement (Script.Parser.consumes_level m).1 fuel
    exact ⟨fun a s' hon => hstatement hon trivial,
      Script.Parser.statementOrSkip_takes hstatement hk⟩
  · exact h.takes x hon rfl

/-- A closing brace and a closing parenthesis, neither of which anything opened. -/
def strayTokens : List Token :=
  [⟨.symbol .rightBrace, .point .start⟩, ⟨.symbol .rightParen, .point .start⟩,
    ⟨.endOfInput, .point .start⟩]

/-- Where no statement can be read, tokens are skipped up to the end. -/
theorem strayTokens_end :
    (Script.Parser.whole.on (start strayTokens)).2.rest <:+ strayTokens ∧
    (start strayTokens).kind ≠ .endOfInput ∧
    (∃ o s', (Script.Parser.statementOrSkip
        (Script.Parser.statement (Script.Parser.level maxNesting).expr 3)).on (start strayTokens) =
          (some o, s') ∧ s'.rest.length < 3) ∧
    (start strayTokens).Ended ∧
    Ends Script.Parser.skipRound false (start strayTokens)
      ((Script.Parser.skip 3 false).on (start strayTokens)) ∧
    (wholeScript (Script.Parser.Functions.unrolled ⟨failure, failure, failure, failure⟩ 3)).on
      (start strayTokens) = Script.Parser.whole.on (start strayTokens) := by
  have hkind : (start strayTokens).kind ≠ .endOfInput := by decide
  have hended : (start strayTokens).Ended :=
    ⟨[⟨.symbol .rightBrace, .point .start⟩, ⟨.symbol .rightParen, .point .start⟩],
      ⟨.endOfInput, .point .start⟩, rfl, rfl, by decide⟩
  obtain ⟨hback, hstatements, hloops, hwhole⟩ := parsers_end
  exact ⟨hback _ .script, hkind, (hstatements maxNesting 3 _ hkind).2, hended,
    (hloops .skip).2 3 false _ hended (by decide),
    (hwhole strayTokens 3 hended (by decide)).2 ⟨failure, failure, failure, failure⟩⟩

end Parser
end Workbook
