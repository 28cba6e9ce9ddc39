/-
What the parser of scripts reads is what the grammar says: operators, statements, and whole scripts
(`written_of_reads`).
-/
import Workbook.Proofs.Script.Operand

namespace Workbook
namespace Script
namespace Parser

open Token (Kind Symbol)
open Workbook.Parser
open Grammar (joins Arrow Power Coalesced Conditional Assignment begins)

/-! ## Operators -/

section Operators

variable {n : Nat} {expr power operand deeper : ExprParser} {block : BlockParser}
  {E P W : Phrase Expr} {B : Phrase (List Stmt)} [expr.Grows] [block.Grows] [power.Grows]
  [operand.Grows] [deeper.Grows]

theorem finds_power (found : operand.Finds n (Free P)) (inner : (nested deeper).Finds n (Free W)) :
    (Parser.power operand deeper).Finds n (Free (Power P W)) := by
  intro s e s' hs hreads
  unfold Parser.power at hreads
  rw [reads_bind] at hreads
  obtain ⟨base, s₁, hbase, hreads⟩ := hreads
  obtain ⟨ts, hP, passes⟩ := found hs hbase
  rw [eatsSymbol, reads_eats] at hreads
  obtain ⟨hstars, hreads⟩ | ⟨-, hreads⟩ := hreads
  · rw [if_pos rfl, reads_bind] at hreads
    obtain ⟨exponent, s₂, hexponent, hreads⟩ := hreads
    obtain ⟨rfl, rfl⟩ := reads_pure.1 hreads
    obtain ⟨us, hW, passes'⟩ := inner (hs.passes passes).taken hexponent
    exact ⟨_, .pow hP hW, passes.append (.taken hstars (by decide) passes')⟩
  · obtain ⟨rfl, rfl⟩ := reads_pure.1 hreads
    exact ⟨ts, .one hP, passes⟩

theorem takes_factor : Takes (do return (← operator factorOp).map joined) (joins 9) :=
  takes_operator fun k => by cases k with
    | symbol x => cases x <;> rfl
    | _ => rfl

theorem takes_term : Takes (do return (← operator termOp).map joined) (joins 8) :=
  takes_operator fun k => by cases k with
    | symbol x => cases x <;> rfl
    | _ => rfl

theorem takes_comparison : Takes (do return (← operator comparisonOp).map joined) (joins 7) :=
  takes_operator fun k => by cases k with
    | symbol x => cases x <;> rfl
    | _ => rfl

theorem takes_equality : Takes (do return (← operator equalityOp).map joined) (joins 6) :=
  takes_operator fun k => by cases k with
    | symbol x => cases x <;> rfl
    | _ => rfl

/-- The table with the only symbol of a logical operator. -/
def logicalOp (s : Symbol) (op : LogicalOp) (t : Symbol) : Option (Expr → Expr → Expr) :=
  if t = s then some (joinedLogically op) else none

theorem takes_and : Takes (operator (logicalOp .ampAmp .and)) (joins 5) :=
  takes_table fun k => by cases k with
    | symbol x => cases x <;> rfl
    | _ => rfl

theorem takes_or : Takes (operator (logicalOp .pipePipe .or)) (joins 4) :=
  takes_table fun k => by cases k with
    | symbol x => cases x <;> rfl
    | _ => rfl

theorem takes_coalesce : Takes (operator (logicalOp .questionQuestion .coalesce)) (joins 3) :=
  takes_table fun k => by cases k with
    | symbol x => cases x <;> rfl
    | _ => rfl

theorem finds_coalesced (found : power.Finds n (Free P)) :
    (coalesced power).Finds n (Free (Coalesced P)) :=
  .chain takes_coalesce (.chain takes_or (.chain takes_and (.chain takes_equality
    (.chain takes_comparison (.chain takes_term (.chain takes_factor found rfl) rfl) rfl) rfl) rfl)
    rfl) rfl

theorem finds_conditional (h : expr.Finds n (Free E)) (found : power.Finds n (Free P)) :
    (conditional expr power).Finds n (Free (Conditional E P)) := by
  intro s e s' hs hreads
  unfold Parser.conditional at hreads
  rw [reads_bind] at hreads
  obtain ⟨condition, s₁, hcondition, hreads⟩ := hreads
  obtain ⟨cs, hc, passes⟩ := finds_coalesced found hs hcondition
  have hs₁ := hs.passes passes
  rw [eatsSymbol, reads_eats] at hreads
  obtain ⟨hmark, hreads⟩ | ⟨-, hreads⟩ := hreads
  · rw [if_pos rfl, reads_bind] at hreads
    obtain ⟨yes, s₂, hyes, hreads⟩ := hreads
    obtain ⟨ys, hy, passes₂⟩ := h hs₁.taken hyes
    rw [expectSymbol, reads_expect, reads_bind] at hreads
    obtain ⟨hcolon, no, s₃, hno, hreads⟩ := hreads
    obtain ⟨ns, hn, passes₃⟩ := h (hs₁.taken.passes passes₂).taken hno
    obtain ⟨rfl, rfl⟩ := reads_pure.1 hreads
    have hchoices := passes₂.append (.taken hcolon (by decide) passes₃)
    exact ⟨_, .choice hc hy hn, passes.append (.taken hmark (by decide) hchoices)⟩
  · obtain ⟨rfl, rfl⟩ := reads_pure.1 hreads
    exact ⟨cs, .one hc, passes⟩

/-- An expression that has been read, or what is assigned to it. -/
def assigned (expr : ExprParser) (target : Expr) : ExprParser := do
  match ← peek with
  | .symbol s =>
    match assignOp s with
    | none => return target
    | some op =>
      checkTarget target
      let _ ← take
      let value ← expr
      return .assign (target.span.merge value.span) op target value
  | _ => return target

instance (target : Expr) : (assigned expr target).Grows := by
  unfold assigned
  refine .bind inferInstance fun k => ?_
  split
  · split <;> infer_instance
  · infer_instance

theorem assignment_eq (expr power : ExprParser) (block : BlockParser) :
    assignment expr power block = (do
      if ← seesArrow then arrow expr block
      else conditional expr power >>= assigned expr) := rfl

theorem reads_assigned {target e : Expr} {s s' : State} : (assigned expr target).Reads s e s' ↔
    (∃ x op value, s.kind = .symbol x ∧ assignOp x = some op ∧ target.isTarget = true ∧
      expr.Reads s.taken value s' ∧ e = .assign (target.span.merge value.span) op target value) ∨
    (ofSymbol assignOp s.kind = none ∧ e = target ∧ s' = s) := by
  unfold assigned
  rw [reads_peek]
  cases hk : s.kind with
  | symbol x =>
    cases hop : assignOp x with
    | none => simp [hop, ofSymbol, reads_pure]
    | some op =>
      simp only [hop]
      rw [reads_checkTarget, reads_take, reads_bind]
      simp [hop, ofSymbol, reads_pure]
  | _ => simp [ofSymbol, reads_pure]

/-- Whether an arrow function is ahead. -/
def arrowAhead (s : State) : Bool :=
  match s.kind with
  | .name _ => s.kindAt 1 = .symbol .arrow
  | .symbol .leftParen => arrowAfter 0 s.rest
  | _ => false

theorem on_seesArrow {β : Type} (f : Bool → Workbook.Parser β) (s : State) :
    (seesArrow >>= f).on s = (f (arrowAhead s)).on s := by
  have hon : seesArrow.on s = (some (arrowAhead s), s) := by
    unfold seesArrow arrowAhead
    rw [on_bind]
    show Parser.on _ s = _
    cases s.kind with
    | symbol x => cases x <;> rfl
    | _ => rfl
  rw [on_bind, hon]
  rfl

theorem reads_seesArrow {β : Type} {f : Bool → Workbook.Parser β} {s s' : State} {b : β} :
    (seesArrow >>= f).Reads s b s' ↔ (f (arrowAhead s)).Reads s b s' :=
  reads_of_on (on_seesArrow f s) rfl

theorem Found.assignment (h : Found n expr block E B) (found : power.Finds n (Free P)) :
    (assignment expr power block).Finds n (Free (Assignment E B P)) := by
  intro s e s' hs hreads
  rw [assignment_eq, reads_seesArrow] at hreads
  split at hreads
  · obtain ⟨ts, harrow, passes⟩ := h.arrow hs hreads
    exact ⟨ts, .arrow harrow, passes⟩
  · rw [reads_bind] at hreads
    obtain ⟨target, s₁, htarget, hreads⟩ := hreads
    obtain ⟨ts, hconditional, passes⟩ := finds_conditional h.expr found hs htarget
    obtain ⟨x, op, value, hk, hop, hisTarget, hvalue, rfl⟩ | ⟨-, rfl, rfl⟩ := reads_assigned.1 hreads
    · obtain ⟨vs, hE, passes'⟩ := h.expr (hs.passes passes).taken hvalue
      exact ⟨_, .assign hconditional hisTarget hop hE,
        passes.append (.taken hk (by simp) passes')⟩
    · exact ⟨ts, .conditional hconditional, passes⟩

end Operators

/-! ## Blocks -/

/-- The tokens of what is read in a loop, or not in one, write it. -/
def FindsIn {α : Type} (n : Nat) (p : Workbook.Parser α) (C : Bool → Grammar.Clause α) : Prop :=
  ∀ ⦃s a s'⦄, s.Ready n → p.Reads s a s' → ∃ ts, C s.inLoop ts a s'.current ∧ s.Passes ts s'

theorem reads_loopBody {statement : StmtParser} {s s' : State} {a : Stmt} :
    (loopBody statement).Reads s a s' ↔ ∃ s₁, statement.Reads (s.within (s.loops + 1)) a s₁ ∧
      s' = s₁.within (s₁.loops - 1) := by
  constructor
  · intro h
    have hon := h.on
    rw [on_loopBody] at hon
    obtain ⟨ha, hs'⟩ := Prod.ext_iff.1 hon
    refine ⟨(statement.on (s.within (s.loops + 1))).2, ⟨Prod.ext ha rfl, ?_⟩, hs'.symm⟩
    have hproblems := congrArg (fun s => s.problems.total) hs'
    exact hproblems.trans h.clean
  · rintro ⟨s₁, h, rfl⟩
    refine ⟨?_, h.clean⟩
    rw [on_loopBody, h.on]

/-- A statement that has been skipped is a problem. -/
theorem reads_statementOrSkip {statement : StmtParser} [hgrows : statement.Grows] {s s' : State}
    {o : Option Stmt} : (statementOrSkip statement).Reads s o s' ↔
      ∃ a, o = some a ∧ statement.Reads s a s' := by
  have hrun := on_statementOrSkip statement s
  cases hs : statement.on s with
  | mk o' s₁ =>
    rw [hs] at hrun
    cases o' with
    | some a =>
      have hon : (statementOrSkip statement).on s = (some (some a), s₁) := hrun
      constructor
      · intro h
        cases hon.symm.trans h.on
        exact ⟨a, rfl, hs, h.clean⟩
      · rintro ⟨a', rfl, h⟩
        cases hs.symm.trans h.on
        exact ⟨hon, h.clean⟩
    | none =>
      have hon : (statementOrSkip statement).on s = (skipBad s.rest.length).on s₁ := hrun
      constructor
      · intro h
        have hlt := hgrows.lt_of_none hs
        have hle := Grows.le (p := skipBad s.rest.length) inferInstance s₁
        rw [← hon, h.on] at hle
        have hle : s₁.problems.total ≤ s'.problems.total := hle
        have hclean := h.clean
        omega
      · rintro ⟨a, -, h⟩
        cases hs.symm.trans h.on

section Blocks

variable {n : Nat} {expr : ExprParser} {statement : StmtParser} {E : Phrase Expr}
  {C : Bool → Grammar.Clause Stmt} [expr.Grows] [statement.Grows] {s s' : State}

theorem statements_sound (found : FindsIn n statement C) {fuel : Nat} {body : List Stmt}
    (hs : s.Ready n) (hreads : (statements statement fuel).Reads s body s') :
    ∃ ts, Grammar.Statements (C s.inLoop) ts body s'.current ∧ s.Passes ts s' := by
  induction fuel generalizing s body with
  | zero =>
    obtain ⟨rfl, rfl⟩ := reads_pure.1 hreads
    exact ⟨[], .nil, .nil _⟩
  | succ fuel ih =>
    unfold statements at hreads
    rw [seesSymbol, reads_sees, reads_sees, reads_get] at hreads
    split at hreads
    · obtain ⟨rfl, rfl⟩ := reads_pure.1 hreads
      exact ⟨[], .nil, .nil _⟩
    · rw [reads_bind] at hreads
      obtain ⟨o, s₁, ho, hreads⟩ := hreads
      obtain ⟨a, rfl, ha⟩ := reads_statementOrSkip.1 ho
      rw [reads_bind] at hreads
      obtain ⟨rest, s₂, hrest, hreads⟩ := hreads
      obtain ⟨rfl, rfl⟩ := reads_pure.1 hreads
      obtain ⟨ts, hC, passes⟩ := found hs ha
      obtain ⟨us, hstatements, passes'⟩ := ih (hs.passes passes) hrest
      rw [passes.inLoop] at hstatements
      rw [passes'.current_eq] at hC
      exact ⟨_, .cons hC hstatements, passes.append passes'⟩

theorem braced_sound (found : FindsIn n statement C) {body : List Stmt} (hs : s.Ready n)
    (hreads : (braced statement).Reads s body s') :
    ∃ ts last, Grammar.Statements (C s.inLoop) ts body ⟨.symbol .rightBrace, last⟩ ∧
      s.Passes (⟨.symbol .leftBrace, s.current.span⟩ :: (ts ++ [⟨.symbol .rightBrace, last⟩])) s' := by
  unfold braced at hreads
  rw [expectSymbol, reads_expect, reads_get, reads_bind] at hreads
  obtain ⟨hopen, body', s₁, hbody, hreads⟩ := hreads
  rw [expectSymbol, reads_expect] at hreads
  obtain ⟨hclose, hreads⟩ := hreads
  obtain ⟨rfl, rfl⟩ := reads_pure.1 hreads
  obtain ⟨ts, hstatements, passes⟩ := statements_sound found hs.taken hbody
  have hcurrent : s₁.current = ⟨.symbol .rightBrace, s₁.current.span⟩ := congrArg (Token.mk · _) hclose
  rw [State.taken_inLoop, hcurrent] at hstatements
  have hlast := passes.append (.taken hclose (by decide) (.nil _))
  exact ⟨ts, _, hstatements, .taken hopen (by decide) hlast⟩

/-- The loops around a function are not around its body. -/
theorem functionBody_sound (found : FindsIn n statement C) :
    (functionBody (braced statement)).Finds n (Free (Grammar.Braced (C false))) := by
  intro s body s' hs hreads
  obtain ⟨s₁, hbody, rfl⟩ := reads_functionBody.1 hreads
  obtain ⟨ts, last, hstatements, passes⟩ := braced_sound found (hs.within 0) hbody
  obtain ⟨s₂, passes₂, rfl⟩ := State.passes_within.1 passes
  have hself : (s₂.within 0).within s.loops = s₂ := by
    rw [State.within_within, ← passes₂.loops, State.within_self]
  rw [hself]
  exact ⟨_, .mk hstatements, passes₂⟩

omit [statement.Grows] in
theorem loopBody_sound (found : FindsIn n statement C) {a : Stmt} (hs : s.Ready n)
    (hreads : (loopBody statement).Reads s a s') :
    ∃ ts, C true ts a s'.current ∧ s.Passes ts s' := by
  obtain ⟨s₁, ha, rfl⟩ := reads_loopBody.1 hreads
  obtain ⟨ts, hC, passes⟩ := found (hs.within _) ha
  obtain ⟨s₂, passes₂, rfl⟩ := State.passes_within.1 passes
  have hself : (s₂.within (s.loops + 1)).within ((s₂.within (s.loops + 1)).loops - 1) = s₂ := by
    rw [State.within_loops, Nat.add_sub_cancel, State.within_within, ← passes₂.loops,
      State.within_self]
  rw [hself]
  exact ⟨ts, hC, passes₂⟩

/-! ## The end of a statement -/

theorem reads_endStatement {s s' : State} {u : Unit} : endStatement.Reads s u s' ↔
    (s.kind = .symbol .semicolon ∧ s' = s.taken) ∨
    (s.kind ≠ .symbol .semicolon ∧ (s.kind = .endOfInput ∨ s.kind = .symbol .rightBrace ∨
      s.previous.line < s.current.span.line) ∧ s' = s) := by
  unfold endStatement
  rw [eatsSymbol, reads_eats]
  refine or_congr (and_congr_right fun _ => ?_) (and_congr_right fun _ => ?_)
  · rw [if_pos rfl, reads_pure]
    simp
  · rw [if_neg Bool.false_ne_true, reads_get]
    have hdecide : (decide (s.kind = .endOfInput) || decide (s.kind = .symbol .rightBrace) ||
        decide (s.previous.line < s.current.span.line)) = true ↔
        s.kind = .endOfInput ∨ s.kind = .symbol .rightBrace ∨
          s.previous.line < s.current.span.line := by
      simp [or_assoc]
    by_cases hended : s.kind = .endOfInput ∨ s.kind = .symbol .rightBrace ∨
        s.previous.line < s.current.span.line
    · rw [if_neg (by rw [hdecide.2 hended]; decide), reads_pure]
      simp [hended]
    · rw [if_pos (by rw [Bool.eq_false_iff.2 (mt hdecide.1 hended)]; rfl)]
      refine ⟨fun h => absurd h not_reads_reporting, fun h => absurd h.1 hended⟩

theorem endStatement_sound {s s' : State} {u : Unit} (hreads : endStatement.Reads s u s') :
    ∃ us, Grammar.Ends true s.previous us s'.current ∧ s.Passes us s' := by
  obtain ⟨hk, rfl⟩ | ⟨-, hk | hk | hline, rfl⟩ := reads_endStatement.1 hreads
  · exact ⟨_, .semicolon, .taken hk (by decide) (.nil _)⟩
  · exact ⟨[], .finish hk, .nil _⟩
  · exact ⟨[], .brace hk, .nil _⟩
  · exact ⟨[], .line rfl hline, .nil _⟩

/-- A statement that is read before what ends it. -/
theorem ends_sound {s s₁ s' : State} {ts : List Token} {u : Unit} (passes : s.Passes ts s₁)
    (hts : ts ≠ []) (hreads : endStatement.Reads s₁ u s') :
    ∃ us, Grammar.Ends true (lastSpan ts) us s'.current ∧ s.Passes (ts ++ us) s' := by
  obtain ⟨us, hends, passes'⟩ := endStatement_sound hreads
  rw [passes.previous_eq hts] at hends
  exact ⟨us, hends, passes.append passes'⟩

/-! ## Statements -/

variable (h : expr.Finds n (Free E)) (starts : Starts begins E) (found : FindsIn n statement C)
  {d : Stmt}

include h starts in
theorem declaration_sound {how : Declarator} (hs : s.Ready n) (hk : declarator? s.kind = some how)
    (hreads : (declaration how expr).Reads s d s') :
    ∃ ts, Grammar.Declaration E ts d ∧ s.Passes ts s' := by
  have hne : s.kind ≠ .endOfInput := by
    intro he
    rw [he] at hk
    cases hk
  unfold declaration at hreads
  rw [reads_take, reads_bind] at hreads
  obtain ⟨k, s₁, hname, hreads⟩ := hreads
  obtain ⟨text, htext, rfl, rfl⟩ := reads_name.1 hname
  have hname := nameText?_eq htext
  have hname' : s.taken.kind ≠ .endOfInput := by
    rw [hname]
    simp
  rw [eatsSymbol, reads_eats] at hreads
  obtain ⟨heq, hreads⟩ | ⟨-, hreads⟩ := hreads
  · rw [if_pos rfl, reads_bind] at hreads
    obtain ⟨value, s₂, hvalue, hreads⟩ := hreads
    rw [reads_since, reads_pure] at hreads
    obtain ⟨rfl, rfl⟩ := hreads
    obtain ⟨vs, hE, passes⟩ := h hs.taken.taken.taken hvalue
    rw [passes.previous_eq (starts.ne_nil hE)]
    exact ⟨_, .value hk hE, .taken rfl hne (.taken hname (by simp) (.taken heq (by decide) passes))⟩
  · rw [if_neg Bool.false_ne_true] at hreads
    by_cases hconstant : how = .constant
    · rw [if_pos hconstant] at hreads
      exact absurd hreads not_reads_report
    · have hword : s.kind = .word .letWord := by
        revert hk
        unfold declarator?
        split
        · intro _
          assumption
        · intro hhow
          exact absurd (Option.some.inj hhow).symm hconstant
        · intro hhow
          cases hhow
      rw [hword] at hk
      cases hk
      rw [if_neg hconstant, reads_since, reads_pure, State.previous_taken hname'] at hreads
      obtain ⟨rfl, rfl⟩ := hreads
      exact ⟨_, .bare, .taken hword (by decide) (.taken hname (by simp) (.nil _))⟩

include h starts in
theorem declared_sound {how : Declarator} {loop : Bool} (hs : s.Ready n)
    (hk : declarator? s.kind = some how) (hreads : (declared how expr).Reads s d s') :
    ∃ ts, Grammar.Rule E true C loop ts d s'.current ∧ s.Passes ts s' := by
  unfold declared at hreads
  rw [reads_bind] at hreads
  obtain ⟨d', s₁, hd, hreads⟩ := hreads
  obtain ⟨ts, hD, passes⟩ := declaration_sound h starts hs hk hd
  rw [reads_bind] at hreads
  obtain ⟨u, s₂, hend, hreads⟩ := hreads
  obtain ⟨rfl, rfl⟩ := reads_pure.1 hreads
  obtain ⟨us, hends, passes'⟩ := ends_sound passes (Grammar.ne_nil_declaration hD) hend
  exact ⟨_, .declaration hD hends, passes'⟩

include h in
theorem condition_sound {e : Expr} (hs : s.Ready n) (hreads : (condition expr).Reads s e s') :
    ∃ cs opening closing, E cs e ∧
      s.Passes (⟨.symbol .leftParen, opening⟩ :: (cs ++ [⟨.symbol .rightParen, closing⟩])) s' := by
  unfold condition at hreads
  rw [expectSymbol, reads_expect, reads_bind] at hreads
  obtain ⟨hopen, e', s₁, he, hreads⟩ := hreads
  rw [expectSymbol, reads_expect] at hreads
  obtain ⟨hclose, hreads⟩ := hreads
  obtain ⟨rfl, rfl⟩ := reads_pure.1 hreads
  obtain ⟨cs, hE, passes⟩ := h hs.taken he
  have hlast := passes.append (.taken hclose (by decide) (.nil _))
  exact ⟨cs, _, _, hE, .taken hopen (by decide) hlast⟩

/-- What a statement is inside of another one is written by some tokens. -/
def Tokened (C : Bool → Grammar.Clause Stmt) : Prop :=
  ∀ ⦃loop ts s next⦄, C loop ts s next → ts ≠ []

variable (tokened : Tokened C)

include h found tokened in
theorem branch_sound {a : Stmt} (hs : s.Ready n) (hk : s.kind = .word .ifWord)
    (hreads : (branch expr statement).Reads s a s') :
    ∃ ts, Grammar.Rule E true C s.inLoop ts a s'.current ∧ s.Passes ts s' := by
  unfold branch at hreads
  rw [reads_take, reads_bind] at hreads
  obtain ⟨c, s₁, hc, hreads⟩ := hreads
  obtain ⟨cs, opening, closing, hE, passes₁⟩ := condition_sound h hs.taken hc
  have hs₁ := hs.taken.passes passes₁
  rw [reads_bind] at hreads
  obtain ⟨yes, s₂, hyes, hreads⟩ := hreads
  obtain ⟨ys, hy, passes₂⟩ := found hs₁ hyes
  have hloop₁ : s₁.inLoop = s.inLoop := by
    unfold State.inLoop
    rw [passes₁.loops, State.taken_loops]
  rw [hloop₁] at hy
  rw [reads_eats] at hreads
  obtain ⟨helse, hreads⟩ | ⟨helse, hreads⟩ := hreads
  · rw [if_pos rfl, reads_bind] at hreads
    obtain ⟨o, s₃, ho, hreads⟩ := hreads
    obtain ⟨no, hno, rfl⟩ := reads_map.1 ho
    obtain ⟨ns, hn, passes₃⟩ := found (hs₁.passes passes₂).taken hno
    have hloop₂ : s₂.taken.inLoop = s.inLoop := by
      unfold State.inLoop
      rw [State.taken_loops, passes₂.loops, passes₁.loops, State.taken_loops]
    rw [hloop₂] at hn
    rw [reads_since, reads_pure] at hreads
    obtain ⟨rfl, rfl⟩ := hreads
    rw [passes₃.previous_eq (tokened hn)]
    have hcurrent : s₂.current = ⟨.word .elseWord, s₂.current.span⟩ := congrArg (Token.mk · _) helse
    rw [hcurrent] at hy
    have hlast := passes₁.append (passes₂.append (.taken helse (by decide) passes₃))
    rw [List.cons_append, List.append_assoc] at hlast
    exact ⟨_, .ifElse hE hy hn, .taken hk (by decide) hlast⟩
  · rw [if_neg Bool.false_ne_true, reads_bind] at hreads
    obtain ⟨o, s₃, ho, hreads⟩ := hreads
    obtain ⟨rfl, rfl⟩ := reads_pure.1 ho
    rw [reads_since, reads_pure] at hreads
    obtain ⟨rfl, rfl⟩ := hreads
    rw [passes₂.previous_eq (tokened hy)]
    have hlast := passes₁.append passes₂
    rw [List.cons_append, List.append_assoc] at hlast
    exact ⟨_, .ifThen hE hy helse, .taken hk (by decide) hlast⟩

include h found tokened in
theorem whileLoop_sound {a : Stmt} {loop : Bool} (hs : s.Ready n) (hk : s.kind = .word .whileWord)
    (hreads : (whileLoop expr statement).Reads s a s') :
    ∃ ts, Grammar.Rule E true C loop ts a s'.current ∧ s.Passes ts s' := by
  unfold whileLoop at hreads
  rw [reads_take, reads_bind] at hreads
  obtain ⟨c, s₁, hc, hreads⟩ := hreads
  obtain ⟨cs, opening, closing, hE, passes₁⟩ := condition_sound h hs.taken hc
  rw [reads_bind] at hreads
  obtain ⟨body, s₂, hbody, hreads⟩ := hreads
  obtain ⟨bs, hb, passes₂⟩ := loopBody_sound found (hs.taken.passes passes₁) hbody
  rw [reads_since, reads_pure] at hreads
  obtain ⟨rfl, rfl⟩ := hreads
  rw [passes₂.previous_eq (tokened hb)]
  have hlast := passes₁.append passes₂
  rw [List.cons_append, List.append_assoc] at hlast
  exact ⟨_, .whileLoop hE hb, .taken hk (by decide) hlast⟩

include h in
theorem upTo_sound {close : Symbol} {o : Option Expr} (hs : s.Ready n)
    (hreads : (upTo close expr).Reads s o s') : ∃ ts, Grammar.Possibly E ts o ∧ s.Passes ts s' := by
  unfold upTo at hreads
  rw [seesSymbol, reads_sees] at hreads
  split at hreads
  · obtain ⟨rfl, rfl⟩ := reads_pure.1 hreads
    exact ⟨[], .none, .nil _⟩
  · rw [reads_bind] at hreads
    obtain ⟨e, s₁, he, hreads⟩ := hreads
    obtain ⟨rfl, rfl⟩ := reads_pure.1 hreads
    obtain ⟨ts, hE, passes⟩ := h hs he
    exact ⟨ts, .some hE, passes⟩

include h starts in
theorem loopStart_sound {o : Option Stmt} (hs : s.Ready n) (hreads : (loopStart expr).Reads s o s') :
    ∃ ts, Grammar.LoopStart E ts o ∧ s.Passes ts s' := by
  unfold loopStart at hreads
  rw [reads_peek] at hreads
  split at hreads
  · rename_i how hk
    rw [reads_bind] at hreads
    obtain ⟨d, s₁, hd, hreads⟩ := hreads
    obtain ⟨rfl, rfl⟩ := reads_pure.1 hreads
    obtain ⟨ts, hD, passes⟩ := declaration_sound h starts hs hk hd
    exact ⟨ts, .declaration hD, passes⟩
  · rw [reads_bind] at hreads
    obtain ⟨o', s₁, ho, hreads⟩ := hreads
    obtain ⟨rfl, rfl⟩ := reads_pure.1 hreads
    obtain ⟨ts, hE, passes⟩ := upTo_sound h hs ho
    cases hE with
    | none => exact ⟨_, .none, passes⟩
    | some hE => exact ⟨ts, .expr hE, passes⟩

include h starts found tokened in
theorem forLoop_sound {a : Stmt} {loop : Bool} (hs : s.Ready n) (hk : s.kind = .word .forWord)
    (hreads : (forLoop expr statement).Reads s a s') :
    ∃ ts, Grammar.Rule E true C loop ts a s'.current ∧ s.Passes ts s' := by
  -- The body and the end of both loops.
  have hbody {s₁ : State} {make : Span → Stmt → Stmt} (hs₁ : s₁.Ready n) (hreads : (do
      expectSymbol .rightParen
      let body ← loopBody statement
      return make (← since s.current.span) body : StmtParser).Reads s₁ a s') :
      ∃ bs body, C true bs body s'.current ∧
        s₁.Passes (⟨.symbol .rightParen, s₁.current.span⟩ :: bs) s' ∧
        a = make (s.current.span.merge (lastSpan bs)) body := by
    rw [expectSymbol, reads_expect, reads_bind] at hreads
    obtain ⟨hclose, body, s₂, hbody, hreads⟩ := hreads
    obtain ⟨bs, hb, passes⟩ := loopBody_sound found hs₁.taken hbody
    rw [reads_since, reads_pure] at hreads
    obtain ⟨rfl, rfl⟩ := hreads
    refine ⟨bs, body, hb, .taken hclose (by decide) passes, ?_⟩
    rw [passes.previous_eq (tokened hb)]
  unfold forLoop at hreads
  rw [reads_take, expectSymbol, reads_expect, reads_get] at hreads
  obtain ⟨hopen, hreads⟩ := hreads
  have hs₁ := hs.taken.taken
  split at hreads
  · rename_i how hhow _
    have hne : s.taken.taken.kind ≠ .endOfInput := by
      intro he
      rw [he] at hhow
      cases hhow
    rw [reads_take, reads_bind] at hreads
    obtain ⟨k, s₂, hname, hreads⟩ := hreads
    obtain ⟨text, htext, rfl, rfl⟩ := reads_name.1 hname
    rw [expectWord, reads_expect, reads_bind] at hreads
    obtain ⟨hof, items, s₃, hitems, hreads⟩ := hreads
    obtain ⟨is, hE, passes₃⟩ := h hs₁.taken.taken.taken hitems
    obtain ⟨bs, body, hb, passes, rfl⟩ := hbody (hs₁.taken.taken.taken.passes passes₃) hreads
    have hlast := State.Passes.taken hof (by decide) (passes₃.append passes)
    have hlast := State.Passes.taken rfl hne (.taken (nameText?_eq htext) (by simp) hlast)
    exact ⟨_, .forOf hhow hE hb, .taken hk (by decide) (.taken hopen (by decide) hlast)⟩
  · rw [reads_bind] at hreads
    obtain ⟨start, s₂, hstart, hreads⟩ := hreads
    obtain ⟨ss, hS, passes₂⟩ := loopStart_sound h starts hs₁ hstart
    have hs₂ := hs₁.passes passes₂
    rw [expectSymbol, reads_expect, reads_bind] at hreads
    obtain ⟨hmark, c, s₃, hc, hreads⟩ := hreads
    obtain ⟨cs, hC, passes₃⟩ := upTo_sound h hs₂.taken hc
    have hs₃ := hs₂.taken.passes passes₃
    rw [expectSymbol, reads_expect, reads_bind] at hreads
    obtain ⟨hmark', step, s₄, hstep, hreads⟩ := hreads
    obtain ⟨ps, hP, passes₄⟩ := upTo_sound h hs₃.taken hstep
    obtain ⟨bs, body, hb, passes, rfl⟩ := hbody (hs₃.taken.passes passes₄) hreads
    have hlast := passes₃.append (.taken hmark' (by decide) (passes₄.append passes))
    have hlast := passes₂.append (.taken hmark (by decide) hlast)
    exact ⟨_, .forLoop hS hC hP hb, .taken hk (by decide) (.taken hopen (by decide) hlast)⟩

include h starts in
theorem returning_sound {a : Stmt} {loop : Bool} (hs : s.Ready n) (hk : s.kind = .word .returnWord)
    (hreads : (returning expr).Reads s a s') :
    ∃ ts, Grammar.Rule E true C loop ts a s'.current ∧ s.Passes ts s' := by
  have hne : s.kind ≠ .endOfInput := by
    rw [hk]
    decide
  unfold returning at hreads
  rw [reads_take, reads_get] at hreads
  simp only at hreads
  split at hreads
  · rw [reads_bind] at hreads
    obtain ⟨o, s₁, ho, hreads⟩ := hreads
    obtain ⟨rfl, rfl⟩ := reads_pure.1 ho
    rw [reads_since, State.previous_taken hne, reads_bind] at hreads
    obtain ⟨u, s₂, hend, hreads⟩ := hreads
    obtain ⟨rfl, rfl⟩ := reads_pure.1 hreads
    obtain ⟨us, hends, passes⟩ := endStatement_sound hend
    rw [State.previous_taken hne] at hends
    exact ⟨_, .returnsNothing hends, .taken hk (by decide) passes⟩
  · rename_i hbare
    rw [reads_bind] at hreads
    obtain ⟨o, s₁, ho, hreads⟩ := hreads
    obtain ⟨v, hv, rfl⟩ := reads_map.1 ho
    obtain ⟨vs, hE, passes⟩ := h hs.taken hv
    rw [reads_since, passes.previous_eq (starts.ne_nil hE), reads_bind] at hreads
    obtain ⟨u, s₂, hend, hreads⟩ := hreads
    obtain ⟨rfl, rfl⟩ := reads_pure.1 hreads
    obtain ⟨us, hends, passes'⟩ := ends_sound passes (starts.ne_nil hE) hend
    refine ⟨_, .returns hE (fun t ht => ?_) hends, .taken hk (by decide) passes'⟩
    obtain ⟨vs', rfl⟩ := List.head?_eq_some_iff.1 ht
    rw [← passes.head.1]
    simp only [Bool.or_eq_true, decide_eq_true_eq, not_or] at hbare
    omega

theorem jump_sound {a : Stmt} {word : String} {make : Span → Stmt} {w : Token.Keyword}
    (hk : s.kind = .word w) (hreads : (jump word make).Reads s a s') :
    s.inLoop = true ∧ a = make s.current.span ∧ ∃ us,
      Grammar.Ends true s.current.span us s'.current ∧
      s.Passes (⟨.word w, s.current.span⟩ :: us) s' := by
  have hne : s.kind ≠ .endOfInput := by
    rw [hk]
    simp
  unfold jump at hreads
  rw [reads_take, reads_get] at hreads
  split at hreads
  · exact absurd hreads not_reads_reportAt
  · rename_i hloops
    rw [reads_bind] at hreads
    obtain ⟨u, s₁, hend, hreads⟩ := hreads
    obtain ⟨rfl, rfl⟩ := reads_pure.1 hreads
    obtain ⟨us, hends, passes⟩ := endStatement_sound hend
    rw [State.previous_taken hne] at hends
    rw [State.taken_loops] at hloops
    exact ⟨by simpa [State.inLoop] using hloops, rfl, us, hends, .taken hk (by simp) passes⟩

include h starts in
theorem throwing_sound {a : Stmt} {loop : Bool} (hs : s.Ready n) (hk : s.kind = .word .throwWord)
    (hreads : (throwing expr).Reads s a s') :
    ∃ ts, Grammar.Rule E true C loop ts a s'.current ∧ s.Passes ts s' := by
  unfold throwing at hreads
  rw [reads_take, reads_bind] at hreads
  obtain ⟨v, s₁, hv, hreads⟩ := hreads
  obtain ⟨vs, hE, passes⟩ := h hs.taken hv
  rw [reads_bind] at hreads
  obtain ⟨u, s₂, hend, hreads⟩ := hreads
  obtain ⟨rfl, rfl⟩ := reads_pure.1 hreads
  obtain ⟨us, hends, passes'⟩ := ends_sound passes (starts.ne_nil hE) hend
  exact ⟨_, .throws hE hends, .taken hk (by decide) passes'⟩

include h starts in
theorem expressionStatement_sound {a : Stmt} {loop : Bool} (hs : s.Ready n)
    (opens : ∀ {ts e s₁}, E ts e → s.Passes ts s₁ → Grammar.opensStatement ts = false)
    (hreads : (expressionStatement expr).Reads s a s') :
    ∃ ts, Grammar.Rule E true C loop ts a s'.current ∧ s.Passes ts s' := by
  unfold expressionStatement at hreads
  rw [reads_bind] at hreads
  obtain ⟨e, s₁, he, hreads⟩ := hreads
  obtain ⟨ts, hE, passes⟩ := h hs he
  rw [reads_bind] at hreads
  obtain ⟨u, s₂, hend, hreads⟩ := hreads
  obtain ⟨rfl, rfl⟩ := reads_pure.1 hreads
  obtain ⟨us, hends, passes'⟩ := ends_sound passes (starts.ne_nil hE) hend
  exact ⟨_, .expr hE (opens hE passes) hends, passes'⟩

end Blocks

/-- What is read as a statement is what the grammar says. -/
theorem findsIn_statement {n : Nat} {expr : ExprParser} {E : Phrase Expr} [expr.Grows]
    (h : expr.Finds n (Free E)) (starts : Starts begins E) (fuel : Nat) :
    FindsIn n (statement expr fuel) (Grammar.Statement E true fuel) := by
  induction fuel with
  | zero =>
    intro s a s' _ hreads
    unfold statement at hreads
    rw [reads_peek] at hreads
    exact absurd hreads not_reads_reject
  | succ fuel ih =>
    have tokened : Tokened (Grammar.Statement E true fuel) :=
      fun _ _ _ _ hS => Grammar.ne_nil_statement starts hS
    intro s a s' hs hreads
    show ∃ ts, Grammar.Rule E true (Grammar.Statement E true fuel) s.inLoop ts a s'.current ∧
      s.Passes ts s'
    have hplain (hbrace : s.kind ≠ .symbol .leftBrace) (hfunction : s.kind ≠ .word .functionWord)
        (hreads : (expressionStatement expr).Reads s a s') : ∃ ts, Grammar.Rule E true
          (Grammar.Statement E true fuel) s.inLoop ts a s'.current ∧ s.Passes ts s' := by
      refine expressionStatement_sound h starts hs (fun {ts e s₁} hE passes => ?_) hreads
      obtain ⟨t, us, rfl, -⟩ := starts hE
      rw [passes.kind] at hbrace hfunction
      simp [Grammar.opensStatement, hbrace, hfunction]
    unfold statement at hreads
    simp only at hreads
    rw [reads_get] at hreads
    cases hk : s.kind with
    | word w =>
      cases w with
      | letWord =>
        simp only [hk] at hreads
        exact declared_sound h starts hs (by rw [hk]; rfl) hreads
      | constWord =>
        simp only [hk] at hreads
        exact declared_sound h starts hs (by rw [hk]; rfl) hreads
      | functionWord =>
        simp only [hk] at hreads
        split at hreads
        · rename_i hname
          rw [reads_bind] at hreads
          obtain ⟨f, s₁, hf, hreads⟩ := hreads
          obtain ⟨rfl, rfl⟩ := reads_pure.1 hreads
          have hfound : Found n expr (braced (statement expr fuel)) E
              (Grammar.Braced (Grammar.Statement E true fuel false)) :=
            ⟨h, functionBody_sound ih, starts, Grammar.starts_braced⟩
          obtain ⟨ts, hF, passes⟩ := hfound.function hs hf
          cases hF with
          | named hp hb => exact ⟨_, .function hp hb, passes⟩
          | unnamed hp hb =>
            cases hp
            rw [kindAt_one (by rw [hk]; decide), passes.head.2.2.kind] at hname
            cases hname
        · rename_i hname
          refine expressionStatement_sound h starts hs (fun {ts e s₁} hE passes => ?_) hreads
          obtain ⟨t, us, rfl, -⟩ := starts hE
          have ht : t.kind = .word .functionWord := by rw [← passes.kind, hk]
          cases us with
          | nil => simp [Grammar.opensStatement, ht]
          | cons u us =>
            rw [kindAt_one (by rw [hk]; decide), passes.head.2.2.kind] at hname
            simpa [Grammar.opensStatement, ht] using hname
      | ifWord =>
        simp only [hk] at hreads
        exact branch_sound h ih tokened hs hk hreads
      | whileWord =>
        simp only [hk] at hreads
        exact whileLoop_sound h ih tokened hs hk hreads
      | forWord =>
        simp only [hk] at hreads
        exact forLoop_sound h starts ih tokened hs hk hreads
      | returnWord =>
        simp only [hk] at hreads
        exact returning_sound h starts hs hk hreads
      | breakWord =>
        simp only [hk] at hreads
        obtain ⟨hloop, rfl, us, hends, passes⟩ := jump_sound hk hreads
        rw [hloop]
        exact ⟨_, .breaks hends, passes⟩
      | continueWord =>
        simp only [hk] at hreads
        obtain ⟨hloop, rfl, us, hends, passes⟩ := jump_sound hk hreads
        rw [hloop]
        exact ⟨_, .continues hends, passes⟩
      | throwWord =>
        simp only [hk] at hreads
        exact throwing_sound h starts hs hk hreads
      | _ =>
        simp only [hk] at hreads
        exact hplain (by simp [hk]) (by simp [hk]) hreads
    | symbol x =>
      cases x with
      | leftBrace =>
        simp only [hk] at hreads
        rw [reads_here, reads_bind] at hreads
        obtain ⟨body, s₁, hbody, hreads⟩ := hreads
        obtain ⟨ts, last, hstatements, passes⟩ := braced_sound ih hs hbody
        rw [reads_since, reads_pure, passes.head.2.2.previous] at hreads
        obtain ⟨rfl, rfl⟩ := hreads
        exact ⟨_, .block hstatements, passes⟩
      | semicolon =>
        simp only [hk] at hreads
        rw [reads_take, reads_pure] at hreads
        obtain ⟨rfl, rfl⟩ := hreads
        exact ⟨_, .empty, .taken hk (by decide) (.nil _)⟩
      | _ =>
        simp only [hk] at hreads
        exact hplain (by simp [hk]) (by simp [hk]) hreads
    | _ =>
      simp only [hk] at hreads
      exact hplain (by simp [hk]) (by simp [hk]) hreads

/-! ## Levels -/

section Levels

variable {n : Nat} {expr powerBelow operandBelow : ExprParser} {E W U : Phrase Expr} [expr.Grows]
  [powerBelow.Grows] [operandBelow.Grows]

theorem found_block (h : expr.Finds n (Free E)) (starts : Starts begins E) :
    Found n expr (block expr) E (Grammar.Block E true) where
  expr := h
  body := by
    intro s body s' hs hreads
    obtain ⟨s₁, hbody, rfl⟩ := reads_functionBody.1 hreads
    unfold block at hbody
    rw [reads_get] at hbody
    have hbraced := reads_functionBody.2 ⟨s₁, hbody, rfl⟩
    obtain ⟨ts, hB, passes⟩ := functionBody_sound (findsIn_statement h starts _) hs hbraced
    exact ⟨ts, ⟨_, hB⟩, passes⟩
  starts := starts
  opens := Grammar.starts_block true

/-- The parsers of one level find what the grammar of the level says. -/
structure FoundLevel (n : Nat) (parsers : Level) (phrases : Grammar.Level) : Prop where
  expr : parsers.expr.Finds n (Free phrases.expr)
  power : parsers.power.Finds n (Free phrases.power)
  operand : parsers.operand.Finds n (Free phrases.operand)

theorem found_over (h : expr.Finds n (Free E)) (starts : Starts begins E)
    (power : (nested powerBelow).Finds n (Free W)) (operand : (nested operandBelow).Finds n (Free U)) :
    FoundLevel n (Level.over expr powerBelow operandBelow) (Grammar.Level.over true E W U) := by
  have hoperand : Finds n (Level.over expr powerBelow operandBelow).operand
      (Free (Grammar.Level.over true E W U).operand) := by
    intro s e s' hs hreads
    unfold Level.over at hreads
    simp only at hreads
    rw [reads_get] at hreads
    exact (found_block h starts).unary operand _ hs hreads
  have hgrows : (Level.over expr powerBelow operandBelow).operand.Grows := grows_over.2.2
  exact ⟨h, finds_power hoperand power, hoperand⟩

end Levels

theorem found_level (n : Nat) : FoundLevel n (level n) (Grammar.level true n) := by
  induction n with
  | zero =>
    have hnested (p : ExprParser) (hp : p = reject (.tooDeep maxNesting)) :
        (nested p).Finds 0 (Free fun _ _ => False) := by
      refine finds_of_not fun s e s' h => ?_
      obtain ⟨-, s₁, h, -⟩ := reads_nested.1 h
      rw [hp] at h
      exact not_reads_reject h
    have hstarts : Starts begins (fun _ _ => False : Phrase Expr) := fun _ _ h => h.elim
    exact found_over (finds_of_not fun _ _ _ => not_reads_reject) hstarts (hnested _ rfl) (hnested _ rfl)
  | succ n ih =>
    obtain ⟨_, _, _⟩ := grows_level n
    have hfound := found_block ih.expr (Grammar.starts_level true n).1
    have hexpr := (hfound.assignment ih.power).nested
    exact found_over hexpr (Grammar.starts_level true (n + 1)).1 ih.power.nested ih.operand.nested

/-! ## Whole scripts -/

theorem topLevel_sound {n : Nat} {statement : StmtParser} [statement.Grows]
    {C : Bool → Grammar.Clause Stmt} (found : FindsIn n statement C) (tokened : Tokened C)
    {fuel : Nat} {s s' : State} {body : List Stmt} (hs : s.Ready n) (hfuel : s.rest.length ≤ fuel)
    (hreads : (topLevel statement fuel).Reads s body s') :
    s'.kind = .endOfInput ∧
      ∃ ts, Grammar.Statements (C s.inLoop) ts body s'.current ∧ s.Passes ts s' := by
  induction fuel generalizing s body with
  | zero =>
    have hrest : s.rest = [] := List.eq_nil_of_length_eq_zero (by omega)
    obtain ⟨rfl, rfl⟩ := reads_pure.1 hreads
    refine ⟨?_, [], .nil, .nil _⟩
    unfold State.kind State.current
    rw [hrest]
    rfl
  | succ fuel ih =>
    unfold topLevel at hreads
    rw [reads_sees, reads_get, hs.going, Bool.or_false] at hreads
    split at hreads
    · rename_i hend
      obtain ⟨rfl, rfl⟩ := reads_pure.1 hreads
      exact ⟨of_decide_eq_true hend, [], .nil, .nil _⟩
    · rw [seesSymbol, reads_sees] at hreads
      split at hreads
      · exact absurd hreads not_reads_report
      · rw [reads_bind] at hreads
        obtain ⟨o, s₁, ho, hreads⟩ := hreads
        obtain ⟨a, rfl, ha⟩ := reads_statementOrSkip.1 ho
        rw [reads_bind] at hreads
        obtain ⟨rest, s₂, hrest, hreads⟩ := hreads
        obtain ⟨rfl, rfl⟩ := reads_pure.1 hreads
        obtain ⟨ts, hC, passes⟩ := found hs ha
        have hlength := congrArg List.length passes.rest
        have hpositive := List.length_pos_iff.2 (tokened hC)
        rw [List.length_append] at hlength
        obtain ⟨hend, us, hstatements, passes'⟩ := ih (hs.passes passes) (by omega) hrest
        rw [passes.inLoop] at hstatements
        rw [passes'.current_eq] at hC
        exact ⟨hend, _, .cons hC hstatements, passes.append passes'⟩

/-- What is read as a whole script is written by the tokens before the end. -/
theorem written_of_reads {ts : List Token} {final : Token} (body : ∀ t ∈ ts, t.kind ≠ .endOfInput)
    (ends : final.kind = .endOfInput) {p : Program} {s' : State}
    (hreads : whole.Reads (start (ts ++ [final])) p s') : Grammar.Written true ts p.body final := by
  have hready : (start (ts ++ [final])).Ready maxNesting := ⟨rfl, rfl⟩
  have hexpression : expression.Grows := (grows_level maxNesting).1
  unfold whole at hreads
  rw [reads_here, reads_get, reads_bind] at hreads
  obtain ⟨statements, s₁, hbody, hreads⟩ := hreads
  rw [reads_since, reads_pure] at hreads
  obtain ⟨rfl, rfl⟩ := hreads
  have starts := (Grammar.starts_level true maxNesting).1
  have hfound : expression.Finds maxNesting (Free (Grammar.level true maxNesting).expr) :=
    (found_level maxNesting).expr
  have found := findsIn_statement hfound starts (start (ts ++ [final])).rest.length
  obtain ⟨hend, us, hstatements, passes⟩ := topLevel_sound found
    (fun _ _ _ _ hS => Grammar.ne_nil_statement starts hS) hready (Nat.le_refl _) hbody
  obtain rfl := passes_eq body ends rfl passes hend
  have hcurrent : s'.current = final := by
    have hrest := passes.rest
    exact current_of_rest (List.append_cancel_left hrest).symm
  rw [hcurrent] at hstatements
  exact ⟨_, hstatements⟩

end Parser
end Script
end Workbook
