/-
The parser of scripts reads what the grammar says, where what follows does not go on with it.

Statements are read by `acceptsIn_statement`, and the expressions, powers and operands of a level by
`accepted_level`.  A whole script that the grammar writes is read as a whole: `reads_of_written`.

The grammar is the one where the end of a line does not end a statement: the parser takes a line that
goes on for one expression, where the grammar could also end the statement.
-/
import Workbook.Proofs.Parser.Account
import Workbook.Proofs.Script.Acceptance

namespace Workbook
namespace Script

open Token (Kind Symbol)
open Workbook.Parser (Phrase Starts Parameters)

namespace Grammar

/-! ## Short statements -/

/-- The statements that at most `k` tokens write. -/
def Short (k : Nat) (S : Bool → Clause Stmt) : Bool → Clause Stmt :=
  fun loop ts a next => S loop ts a next ∧ ts.length ≤ k

section

variable {E : Phrase Expr} {lines loop : Bool} {S : Bool → Clause Stmt} {k : Nat} {ts : List Token}
  {a : Stmt} {next : Token}

/-- What a list of statements is depends on what its statements are, none of which is longer. -/
theorem Statements.imp {C C' : Clause Stmt} {body : List Stmt} (h : Statements C ts body next)
    (hC : ∀ {us s next}, us.length ≤ ts.length → C us s next → C' us s next) :
    Statements C' ts body next := by
  induction h with
  | nil => exact .nil
  | cons ha _ ih =>
    refine .cons (hC (by simp) ha) (ih fun hle => hC ?_)
    rw [List.length_append]
    omega

/-- What a statement is depends on what the statements in it are, all of which are shorter. -/
theorem Rule.imp {S' : Bool → Clause Stmt} (h : Rule E lines S loop ts a next)
    (hS : ∀ {loop us s next}, us.length < ts.length → S loop us s next → S' loop us s next) :
    Rule E lines S' loop ts a next := by
  cases h with
  | declaration hd he => exact .declaration hd he
  | function hp hb =>
    cases hb with
    | mk hbody =>
      simp only [List.length_cons, List.length_append, List.length_nil] at hS
      exact .function hp (.mk (hbody.imp fun hle => hS (by omega)))
  | ifThen hc hy hn =>
    simp only [List.length_cons, List.length_append] at hS
    exact .ifThen hc (hS (by omega) hy) hn
  | ifElse hc hy hn =>
    simp only [List.length_cons, List.length_append] at hS
    exact .ifElse hc (hS (by omega) hy) (hS (by omega) hn)
  | whileLoop hc hb =>
    simp only [List.length_cons, List.length_append] at hS
    exact .whileLoop hc (hS (by omega) hb)
  | forLoop hs hc hp hb =>
    simp only [List.length_cons, List.length_append] at hS
    exact .forLoop hs hc hp (hS (by omega) hb)
  | forOf hd hi hb =>
    simp only [List.length_cons, List.length_append] at hS
    exact .forOf hd hi (hS (by omega) hb)
  | returns hv hvs he => exact .returns hv hvs he
  | returnsNothing he => exact .returnsNothing he
  | breaks he => exact .breaks he
  | continues he => exact .continues he
  | throws hv he => exact .throws hv he
  | block hbody =>
    simp only [List.length_cons, List.length_append, List.length_nil] at hS
    exact .block (hbody.imp fun hle => hS (by omega))
  | empty => exact .empty
  | expr hE hopens he => exact .expr hE hopens he

theorem Statements.short {body : List Stmt} (h : Statements (S loop) ts body next)
    (hk : ts.length ≤ k) : Statements (Short k S loop) ts body next :=
  h.imp fun hle hs => ⟨hs, by omega⟩

/-- The statements inside of a short statement are shorter. -/
theorem Rule.short (h : Rule E lines S loop ts a next) (hk : ts.length ≤ k + 1) :
    Rule E lines (Short k S) loop ts a next :=
  h.imp fun hlt hs => ⟨hs, by omega⟩

/-- Statements may be nested less deep than they could be. -/
theorem Statement.mono {m m' : Nat} (hm : m ≤ m') (h : Statement E lines m loop ts a next) :
    Statement E lines m' loop ts a next := by
  induction m' generalizing m loop ts a next with
  | zero =>
    obtain rfl : m = 0 := by omega
    exact h
  | succ m' ih =>
    cases m with
    | zero => exact h.elim
    | succ m => exact Rule.imp h fun _ hs => ih (by omega) hs

/-- No statement begins with what ends a block. -/
theorem starts_statement (hE : Starts begins E) {n : Nat} (h : Statement E lines n loop ts a next) :
    ∃ t us, ts = t :: us ∧ t.kind ≠ .symbol .rightBrace := by
  cases n with
  | zero => exact h.elim
  | succ n =>
    cases h with
    | declaration hd _ =>
      cases hd with
      | value hk _ =>
        refine ⟨_, _, rfl, ?_⟩
        rintro rfl
        cases hk
      | bare => exact ⟨_, _, rfl, by simp⟩
    | expr he _ _ =>
      obtain ⟨t, us, rfl, ht⟩ := hE he
      refine ⟨t, _, rfl, fun hk => ?_⟩
      rw [hk] at ht
      cases ht
    | _ => exact ⟨_, _, rfl, by simp⟩

end

/-! ## Levels -/

/-- The level over a level. -/
def Level.next (lines : Bool) (below : Level) : Level :=
  .over lines (Assignment below.expr (Block below.expr lines) below.power) below.power below.operand

section

variable {lines : Bool} {E P O : Phrase Expr} {ts : List Token} {e : Expr}

/-- An operand alone is an expression. -/
theorem next_suffixed (h : Suffixed E (Block E lines) ts e) :
    ((Level.over lines E P O).next lines).expr ts e := by
  have hpower {P W : Phrase Expr} (hP : P ts e) : Coalesced (Power P W) ts e :=
    .one (.one (.one (.one (.one (.one (.one (.one hP)))))))
  exact .conditional (.one (hpower (.updated (.suffixed h))))

theorem level_suffixed {n : Nat}
    (h : Suffixed (level lines n).expr (Block (level lines n).expr lines) ts e) :
    (level lines (n + 1)).expr ts e := by
  cases n with
  | zero => exact next_suffixed h
  | succ n => exact next_suffixed h

end

end Grammar

namespace Parser

open Workbook.Parser
open Grammar (rank begins)

/-! ## Blocks -/

/-- What is written in a loop, or not in one, is read there. -/
def AcceptsIn {α : Type} (n : Nat) (p : Workbook.Parser α) (C : Bool → Grammar.Clause α) : Prop :=
  ∀ ⦃loop s a s' ts⦄, s.Ready n → (loop = true → s.inLoop = true) → C loop ts a s'.current →
    s.Passes ts s' → p.Reads s a s'

section Blocks

variable {n : Nat} {expr : ExprParser} {statement : StmtParser} {E : Phrase Expr}
  {C : Bool → Grammar.Clause Stmt} {s s' : State} {ts : List Token} {loop : Bool}

/-- Statements up to a closing brace. -/
theorem statements_complete [statement.Grows] (accepted : AcceptsIn n statement C)
    (starts : ∀ {loop ts s next}, C loop ts s next →
      ∃ t us, ts = t :: us ∧ t.kind ≠ .symbol .rightBrace)
    {fuel : Nat} {body : List Stmt} (hs : s.Ready n) (hloop : loop = true → s.inLoop = true)
    (hfuel : s.rest.length ≤ fuel) (hbody : Grammar.Statements (C loop) ts body s'.current)
    (passes : s.Passes ts s') (hend : s'.kind = .symbol .rightBrace) :
    (statements statement fuel).Reads s body s' := by
  generalize hnext : s'.current = next at hbody
  induction hbody generalizing s fuel with
  | nil =>
    cases passes
    cases fuel with
    | zero => exact reads_pure.2 ⟨rfl, rfl⟩
    | succ fuel =>
      unfold statements
      rw [seesSymbol, reads_sees, reads_sees, reads_get]
      rw [if_pos (by simp [hend])]
      exact reads_pure.2 ⟨rfl, rfl⟩
  | @cons us vs a body next ha _ ih =>
    subst hnext
    obtain ⟨s₁, hfirst, hlast⟩ := passes.of_append
    obtain ⟨t, us, rfl, ht⟩ := starts ha
    obtain ⟨fuel, rfl, hle⟩ := hfirst.fuel hfuel
    rw [← hlast.current_eq] at ha
    have hread := accepted hs hloop ha hfirst
    have hrest := ih (hs.passes hfirst) (by rwa [hfirst.inLoop]) hle hlast rfl
    unfold statements
    rw [seesSymbol, reads_sees, reads_sees, reads_get]
    have hne := hfirst.head.2.1
    rw [if_neg (by rw [hfirst.kind]; simp [ht, hne, hs.going])]
    refine (reads_statementOrSkip.2 ⟨a, rfl, hread⟩).bind ?_
    exact hrest.bind (reads_pure.2 ⟨rfl, rfl⟩)

theorem braced_complete [statement.Grows] (accepted : AcceptsIn n statement C)
    (starts : ∀ {loop ts s next}, C loop ts s next →
      ∃ t us, ts = t :: us ∧ t.kind ≠ .symbol .rightBrace)
    {body : List Stmt} {first last : Span} (hs : s.Ready n) (hloop : loop = true → s.inLoop = true)
    (hbody : Grammar.Statements (C loop) ts body ⟨.symbol .rightBrace, last⟩)
    (passes : s.Passes (⟨.symbol .leftBrace, first⟩ :: (ts ++ [⟨.symbol .rightBrace, last⟩])) s') :
    (braced statement).Reads s body s' := by
  obtain ⟨hopen, -, passes⟩ := passes.head
  obtain ⟨s₁, hstatements, hlast⟩ := passes.of_append
  obtain ⟨hclose, -, hlast⟩ := hlast.head
  cases hlast
  have hk : s₁.kind = .symbol .rightBrace := congrArg Token.kind hclose
  rw [← hclose] at hbody
  unfold braced
  rw [expectSymbol, reads_expect, reads_get]
  refine ⟨congrArg Token.kind hopen, ?_⟩
  refine (statements_complete accepted starts hs.taken (by rwa [State.taken_inLoop]) (Nat.le_refl _) hbody
    hstatements hk).bind ?_
  rw [expectSymbol, reads_expect]
  exact ⟨hk, reads_pure.2 ⟨rfl, rfl⟩⟩

/-- The loops around a function are not around its body. -/
theorem functionBody_complete [statement.Grows] (accepted : AcceptsIn n statement C)
    (starts : ∀ {loop ts s next}, C loop ts s next →
      ∃ t us, ts = t :: us ∧ t.kind ≠ .symbol .rightBrace) :
    (functionBody (braced statement)).Accepts n (Free (Grammar.Braced (C false))) := by
  intro s body s' ts hs hbody passes
  cases hbody with
  | mk hstatements =>
    refine reads_functionBody.2 ⟨s'.within 0, ?_, ?_⟩
    · exact braced_complete accepted starts (hs.within 0) (by simp) hstatements
        (State.passes_within.2 ⟨s', passes, rfl⟩)
    · rw [State.within_within, ← passes.loops, State.within_self]

theorem loopBody_complete (accepted : AcceptsIn n statement C) {a : Stmt} (hs : s.Ready n)
    (ha : C true ts a s'.current) (passes : s.Passes ts s') : (loopBody statement).Reads s a s' := by
  refine reads_loopBody.2 ⟨s'.within (s.loops + 1), ?_, ?_⟩
  · exact accepted (hs.within _) (fun _ => by simp [State.inLoop]) ha
      (State.passes_within.2 ⟨s', passes, rfl⟩)
  · rw [State.within_loops, Nat.add_sub_cancel, State.within_within, ← passes.loops,
      State.within_self]

/-! ## The end of a statement -/

theorem endStatement_complete {before : Span} (h : Grammar.Ends false before ts s'.current)
    (passes : s.Passes ts s') : endStatement.Reads s () s' := by
  cases h with
  | semicolon =>
    obtain ⟨hk, -, hnil⟩ := passes.head
    cases hnil
    exact reads_endStatement.2 (.inl ⟨congrArg Token.kind hk, rfl⟩)
  | brace hk =>
    cases passes
    have hk : s.kind = .symbol .rightBrace := hk
    exact reads_endStatement.2 (.inr ⟨by simp [hk], .inr (.inl hk), rfl⟩)
  | finish hk =>
    cases passes
    have hk : s.kind = .endOfInput := hk
    exact reads_endStatement.2 (.inr ⟨by simp [hk], .inl hk, rfl⟩)
  | line hl _ => cases hl

/-- No operator is where a statement ends. -/
theorem rank_of_ends {before : Span} (h : Grammar.Ends false before ts s'.current)
    (passes : s.Passes ts s') : rank s.kind = 0 := by
  cases h with
  | semicolon =>
    rw [passes.kind]
    rfl
  | brace hk | finish hk =>
    cases passes
    have hk : s.kind = _ := hk
    rw [hk]
    rfl
  | line hl _ => cases hl

/-! ## Statements -/

variable (h : expr.Accepts n (Ended rank E)) (starts : Starts begins E)

include h starts in
/-- A declaration without what ends it. -/
theorem declaration_complete {d : Stmt} (hs : s.Ready n) (hd : Grammar.Declaration E ts d)
    (hrank : rank s'.kind = 0) (passes : s.Passes ts s') :
    ∃ how, declarator? s.kind = some how ∧ (declaration how expr).Reads s d s' := by
  cases hd with
  | @value vs k how key first span eq v hk hv =>
    obtain ⟨hfirst, -, passes⟩ := passes.head
    obtain ⟨hname, -, passes⟩ := passes.head
    obtain ⟨heq, -, passes⟩ := passes.head
    have hkind : s.kind = k := congrArg Token.kind hfirst
    have hkey : s.taken.kind = .name key := congrArg Token.kind hname
    refine ⟨how, by rw [hkind, hk], ?_⟩
    unfold declaration
    rw [reads_take]
    refine Reads.bind (reads_name.2 ⟨key, by rw [hkey]; rfl, rfl, rfl⟩) ?_
    rw [eatsSymbol, reads_eats]
    refine .inl ⟨congrArg Token.kind heq, ?_⟩
    refine (h hs.taken.taken.taken ⟨hv, hrank⟩ passes).bind ?_
    rw [reads_since, passes.previous_eq (starts.ne_nil hv), hfirst, hname]
    exact reads_pure.2 ⟨rfl, rfl⟩
  | @bare key first span =>
    obtain ⟨hfirst, -, passes⟩ := passes.head
    obtain ⟨hname, hne, hnil⟩ := passes.head
    cases hnil
    have hkind : s.kind = .word .letWord := congrArg Token.kind hfirst
    have hkey : s.taken.kind = .name key := congrArg Token.kind hname
    refine ⟨.variable, by rw [hkind]; rfl, ?_⟩
    unfold declaration
    rw [reads_take]
    refine Reads.bind (reads_name.2 ⟨key, by rw [hkey]; rfl, rfl, rfl⟩) ?_
    rw [eatsSymbol, reads_eats]
    refine .inr ⟨?_, ?_⟩
    · intro heq
      rw [heq] at hrank
      cases hrank
    · have hvariable : Declarator.variable ≠ .constant := by decide
      rw [if_neg Bool.false_ne_true, if_neg hvariable, reads_since,
        State.previous_taken (by simp [hkey]), hfirst, hname]
      exact reads_pure.2 ⟨rfl, rfl⟩

include h in
theorem condition_complete {e : Expr} {opening closing : Span} (hs : s.Ready n) (he : E ts e)
    (passes : s.Passes (⟨.symbol .leftParen, opening⟩ :: (ts ++ [⟨.symbol .rightParen, closing⟩])) s') :
    (condition expr).Reads s e s' := by
  obtain ⟨hopen, -, passes⟩ := passes.head
  obtain ⟨s₁, hinner, hlast⟩ := passes.of_append
  obtain ⟨hclose, -, hlast⟩ := hlast.head
  cases hlast
  have hk : s₁.kind = .symbol .rightParen := congrArg Token.kind hclose
  unfold condition
  rw [expectSymbol, reads_expect]
  refine ⟨congrArg Token.kind hopen, ?_⟩
  refine (h hs.taken ⟨he, by rw [hk]; rfl⟩ hinner).bind ?_
  rw [expectSymbol, reads_expect]
  exact ⟨hk, reads_pure.2 ⟨rfl, rfl⟩⟩

include h starts in
/-- What may be left out before a symbol. -/
theorem upTo_complete {close : Symbol} (hclose : begins (.symbol close) = false)
    (hrank : rank (.symbol close) = 0) {o : Option Expr} (hs : s.Ready n)
    (ho : Grammar.Possibly E ts o) (hk : s'.kind = .symbol close) (passes : s.Passes ts s') :
    (upTo close expr).Reads s o s' := by
  unfold upTo
  rw [seesSymbol, reads_sees]
  cases ho with
  | none =>
    cases passes
    rw [if_pos (decide_eq_true hk)]
    exact reads_pure.2 ⟨rfl, rfl⟩
  | some he =>
    obtain ⟨t, us, rfl, ht⟩ := starts.avoids hclose he
    rw [if_neg (by simpa [passes.kind] using ht)]
    exact (h hs ⟨he, by rw [hk, hrank]⟩ passes).bind (reads_pure.2 ⟨rfl, rfl⟩)

/-- What an expression begins with is not what a declaration begins with. -/
theorem declarator_of_begins {k : Kind} (hk : begins k = true) : declarator? k = none := by
  cases k with
  | word w => cases w <;> first | rfl | cases hk
  | _ => rfl

include h starts in
theorem loopStart_complete {o : Option Stmt} (hs : s.Ready n) (ho : Grammar.LoopStart E ts o)
    (hk : s'.kind = .symbol .semicolon) (passes : s.Passes ts s') :
    (loopStart expr).Reads s o s' := by
  have hrank : rank s'.kind = 0 := by rw [hk]; rfl
  unfold loopStart
  rw [reads_peek]
  cases ho with
  | declaration hd =>
    obtain ⟨how, hhow, hread⟩ := declaration_complete h starts hs hd hrank passes
    rw [hhow]
    exact hread.bind (reads_pure.2 ⟨rfl, rfl⟩)
  | none =>
    cases passes
    rw [hk]
    have hread : (upTo .semicolon expr).Reads s none s :=
      upTo_complete h starts rfl rfl hs .none hk (.nil s)
    exact hread.bind (reads_pure.2 ⟨rfl, rfl⟩)
  | expr he =>
    have hread : (upTo .semicolon expr).Reads s _ s' :=
      upTo_complete h starts rfl rfl hs (.some he) hk passes
    obtain ⟨t, us, rfl, ht⟩ := starts he
    rw [passes.kind, declarator_of_begins ht]
    exact hread.bind (reads_pure.2 ⟨rfl, rfl⟩)

/-- A statement without what ends it, and what ends it. -/
theorem ended_complete {p : StmtParser} {us : List Token} {before : Span} {a : Stmt} {s₁ : State}
    (hread : p.Reads s a s₁) (he : Grammar.Ends false before us s'.current)
    (passes : s₁.Passes us s') : (do let a ← p; endStatement; return a : StmtParser).Reads s a s' :=
  hread.bind ((endStatement_complete he passes).bind (reads_pure.2 ⟨rfl, rfl⟩))

section Rules

variable (accepted : AcceptsIn n statement C) (hs : s.Ready n)
  (hloop : loop = true → s.inLoop = true)

include h starts hs in
theorem declared_complete {us : List Token} {before : Span} {d : Stmt}
    (hd : Grammar.Declaration E ts d) (he : Grammar.Ends false before us s'.current)
    (passes : s.Passes (ts ++ us) s') :
    ∃ how, declarator? s.kind = some how ∧ (declared how expr).Reads s d s' := by
  obtain ⟨s₁, hfirst, hlast⟩ := passes.of_append
  obtain ⟨how, hk, hread⟩ := declaration_complete h starts hs hd (rank_of_ends he hlast) hfirst
  exact ⟨how, hk, ended_complete hread he hlast⟩

variable {cs ys : List Token} {first opening closing : Span} {c : Expr} {yes : Stmt}

include h hs in
/-- The condition of a statement is read before the rest of it. -/
theorem condition_then {β : Type} {f : Expr → Workbook.Parser β} {b : β} (hc : E cs c)
    (passes : s.Passes (⟨.symbol .leftParen, opening⟩ :: (cs ++ ⟨.symbol .rightParen, closing⟩ :: ys))
      s') (hrest : ∀ s₁, s₁.Ready n → s₁.inLoop = s.inLoop → s₁.Passes ys s' → (f c).Reads s₁ b s') :
    (condition expr >>= f).Reads s b s' := by
  rw [List.append_cons, ← List.cons_append] at passes
  obtain ⟨s₁, hfirst, hlast⟩ := passes.of_append
  exact (condition_complete h hs hc hfirst).bind
    (hrest s₁ (hs.passes hfirst) hfirst.inLoop hlast)

include h accepted hs hloop in
theorem ifThen_complete (hc : E cs c) (hy : C loop ys yes s'.current)
    (hn : s'.kind ≠ .word .elseWord) (hne : ys ≠ [])
    (passes : s.Passes (⟨.word .ifWord, first⟩ :: ⟨.symbol .leftParen, opening⟩ ::
      (cs ++ ⟨.symbol .rightParen, closing⟩ :: ys)) s') :
    (branch expr statement).Reads s (.branch (first.merge (lastSpan ys)) c yes none) s' := by
  obtain ⟨hfirst, -, passes⟩ := passes.head
  unfold branch
  rw [reads_take]
  refine condition_then h hs.taken hc passes fun s₁ hs₁ hloops passes₁ => ?_
  refine (accepted hs₁ (by rwa [hloops, State.taken_inLoop]) hy passes₁).bind ?_
  rw [reads_eats]
  refine .inr ⟨hn, ?_⟩
  rw [if_neg Bool.false_ne_true]
  refine Reads.bind (reads_pure.2 ⟨rfl, rfl⟩) ?_
  rw [reads_since, passes₁.previous_eq hne, hfirst]
  exact reads_pure.2 ⟨rfl, rfl⟩

include h accepted hs hloop in
theorem ifElse_complete {ns : List Token} {orElse : Span} {no : Stmt} (hc : E cs c)
    (hy : C loop ys yes ⟨.word .elseWord, orElse⟩) (hn : C loop ns no s'.current) (hne : ns ≠ [])
    (passes : s.Passes (⟨.word .ifWord, first⟩ :: ⟨.symbol .leftParen, opening⟩ ::
      (cs ++ ⟨.symbol .rightParen, closing⟩ :: (ys ++ ⟨.word .elseWord, orElse⟩ :: ns))) s') :
    (branch expr statement).Reads s (.branch (first.merge (lastSpan ns)) c yes (some no)) s' := by
  obtain ⟨hfirst, -, passes⟩ := passes.head
  unfold branch
  rw [reads_take]
  refine condition_then h hs.taken hc passes fun s₁ hs₁ hloops passes₁ => ?_
  have hloop₁ : loop = true → s₁.inLoop = true := by rwa [hloops, State.taken_inLoop]
  obtain ⟨s₂, hyes, hlast⟩ := passes₁.of_append
  obtain ⟨helse, -, hno⟩ := hlast.head
  have hs₂ := hs₁.passes hyes
  rw [← helse] at hy
  refine (accepted hs₁ hloop₁ hy hyes).bind ?_
  rw [reads_eats]
  refine .inl ⟨congrArg Token.kind helse, ?_⟩
  rw [if_pos rfl]
  have hread := accepted hs₂.taken (by rwa [State.taken_inLoop, hyes.inLoop]) hn hno
  refine Reads.bind (reads_map.2 ⟨no, hread, rfl⟩) ?_
  rw [reads_since, hno.previous_eq hne, hfirst]
  exact reads_pure.2 ⟨rfl, rfl⟩

include h accepted hs in
theorem whileLoop_complete (hc : E cs c) (hb : C true ys yes s'.current) (hne : ys ≠ [])
    (passes : s.Passes (⟨.word .whileWord, first⟩ :: ⟨.symbol .leftParen, opening⟩ ::
      (cs ++ ⟨.symbol .rightParen, closing⟩ :: ys)) s') :
    (whileLoop expr statement).Reads s (.whileLoop (first.merge (lastSpan ys)) c yes) s' := by
  obtain ⟨hfirst, -, passes⟩ := passes.head
  unfold whileLoop
  rw [reads_take]
  refine condition_then h hs.taken hc passes fun s₁ hs₁ _ passes₁ => ?_
  refine (loopBody_complete accepted hs₁ hb passes₁).bind ?_
  rw [reads_since, passes₁.previous_eq hne, hfirst]
  exact reads_pure.2 ⟨rfl, rfl⟩

include h accepted hs in
theorem forOf_complete {k : Kind} {how : Declarator} {key : String} {declared span of : Span}
    (hk : declarator? k = some how) (hi : E cs c) (hb : C true ys yes s'.current) (hne : ys ≠ [])
    (passes : s.Passes (⟨.word .forWord, first⟩ :: ⟨.symbol .leftParen, opening⟩ ::
      ⟨k, declared⟩ :: ⟨.name key, span⟩ :: ⟨.word .ofWord, of⟩ ::
        (cs ++ ⟨.symbol .rightParen, closing⟩ :: ys)) s') :
    (forLoop expr statement).Reads s
      (.forOf (first.merge (lastSpan ys)) how ⟨key, span⟩ c yes) s' := by
  obtain ⟨hfirst, -, passes⟩ := passes.head
  obtain ⟨hopen, -, passes⟩ := passes.head
  have hrest := passes.rest
  obtain ⟨hdeclared, -, passes⟩ := passes.head
  obtain ⟨hname, -, passes⟩ := passes.head
  obtain ⟨hof, -, passes⟩ := passes.head
  obtain ⟨s₁, hitems, hlast⟩ := passes.of_append
  obtain ⟨hclose, -, hbody⟩ := hlast.head
  have hkind : s.taken.taken.kind = k := congrArg Token.kind hdeclared
  have hkey : s.taken.taken.taken.kind = .name key := congrArg Token.kind hname
  have hclose : s₁.kind = .symbol .rightParen := congrArg Token.kind hclose
  have hnext : s.taken.taken.kindAt 1 = .name key ∧ s.taken.taken.kindAt 2 = .word .ofWord := by
    unfold State.kindAt
    rw [hrest]
    exact ⟨rfl, rfl⟩
  have hs₁ := hs.taken.taken.taken.taken.taken.passes hitems
  unfold forLoop
  rw [reads_take, expectSymbol, reads_expect, reads_get, hkind, hk, hnext.1, hnext.2]
  refine ⟨congrArg Token.kind hopen, ?_⟩
  simp only [Kind.isName, decide_true, Bool.and_self]
  rw [reads_take]
  refine Reads.bind (reads_name.2 ⟨key, by rw [hkey]; rfl, rfl, rfl⟩) ?_
  rw [expectWord, reads_expect]
  refine ⟨congrArg Token.kind hof, ?_⟩
  refine (h hs.taken.taken.taken.taken.taken ⟨hi, by rw [hclose]; rfl⟩ hitems).bind ?_
  rw [expectSymbol, reads_expect]
  refine ⟨hclose, ?_⟩
  refine (loopBody_complete accepted hs₁.taken hb hbody).bind ?_
  rw [reads_since, hbody.previous_eq hne, hfirst, hname]
  exact reads_pure.2 ⟨rfl, rfl⟩

include starts in
/-- What stands before the first semicolon of a loop is no name of an item with `of` behind it. -/
theorem loopStart_other {us : List Token} {mark : Span} {o : Option Stmt}
    (ho : Grammar.LoopStart E ts o) (hrest : s.rest = ts ++ ⟨.symbol .semicolon, mark⟩ :: us) :
    declarator? s.kind = none ∨ ((s.kindAt 1).isName && s.kindAt 2 = .word .ofWord) = false := by
  have hkind : s.kind = ((ts ++ ⟨.symbol .semicolon, mark⟩ :: us).headD s.current).kind := by
    unfold State.kind State.current
    rw [hrest]
    cases ts <;> rfl
  unfold State.kindAt
  rw [hkind, hrest]
  cases ho with
  | none => exact .inl rfl
  | declaration hd => cases hd <;> exact .inr rfl
  | expr he =>
    obtain ⟨t, vs, rfl, ht⟩ := starts he
    exact .inl (declarator_of_begins ht)

include h starts accepted hs in
theorem forLoop_complete {ss ps : List Token} {mark mark' : Span} {start : Option Stmt}
    {o step : Option Expr} (hs' : Grammar.LoopStart E ss start) (hc : Grammar.Possibly E cs o)
    (hp : Grammar.Possibly E ps step) (hb : C true ys yes s'.current) (hne : ys ≠ [])
    (passes : s.Passes (⟨.word .forWord, first⟩ :: ⟨.symbol .leftParen, opening⟩ ::
      (ss ++ ⟨.symbol .semicolon, mark⟩ :: (cs ++ ⟨.symbol .semicolon, mark'⟩ ::
        (ps ++ ⟨.symbol .rightParen, closing⟩ :: ys)))) s') :
    (forLoop expr statement).Reads s
      (.forLoop (first.merge (lastSpan ys)) start o step yes) s' := by
  obtain ⟨hfirst, -, passes⟩ := passes.head
  obtain ⟨hopen, -, passes⟩ := passes.head
  have hrest := passes.rest
  rw [List.append_assoc] at hrest
  obtain ⟨s₁, hstart, passes⟩ := passes.of_append
  obtain ⟨hmark, -, passes⟩ := passes.head
  obtain ⟨s₂, hcondition, passes⟩ := passes.of_append
  obtain ⟨hmark', -, passes⟩ := passes.head
  obtain ⟨s₃, hstep, passes⟩ := passes.of_append
  obtain ⟨hclose, -, hbody⟩ := passes.head
  have hmark : s₁.kind = .symbol .semicolon := congrArg Token.kind hmark
  have hmark' : s₂.kind = .symbol .semicolon := congrArg Token.kind hmark'
  have hclose : s₃.kind = .symbol .rightParen := congrArg Token.kind hclose
  have hs₁ := hs.taken.taken.passes hstart
  have hs₂ := hs₁.taken.passes hcondition
  have hs₃ := hs₂.taken.passes hstep
  have hread : (loopStart expr >>= fun start => do
      expectSymbol .semicolon
      let c ← upTo .semicolon expr
      expectSymbol .semicolon
      let step ← upTo .rightParen expr
      expectSymbol .rightParen
      let body ← loopBody statement
      return .forLoop (← since s.current.span) start c step body : StmtParser).Reads s.taken.taken
        (.forLoop (first.merge (lastSpan ys)) start o step yes) s' := by
    refine (loopStart_complete h starts hs.taken.taken hs' hmark hstart).bind ?_
    rw [expectSymbol, reads_expect]
    refine ⟨hmark, ?_⟩
    refine (upTo_complete h starts rfl rfl hs₁.taken hc hmark' hcondition).bind ?_
    rw [reads_expect]
    refine ⟨hmark', ?_⟩
    refine (upTo_complete h starts rfl rfl hs₂.taken hp hclose hstep).bind ?_
    rw [expectSymbol, reads_expect]
    refine ⟨hclose, ?_⟩
    refine (loopBody_complete accepted hs₃.taken hb hbody).bind ?_
    rw [reads_since, hbody.previous_eq hne, hfirst]
    exact reads_pure.2 ⟨rfl, rfl⟩
  unfold forLoop
  rw [reads_take, expectSymbol, reads_expect, reads_get]
  refine ⟨congrArg Token.kind hopen, ?_⟩
  obtain hnone | hother := loopStart_other starts hs' hrest
  · rw [hnone]
    exact hread
  · rw [hother]
    cases declarator? s.taken.taken.kind <;> exact hread

include h starts hs in
/-- A value is read where it begins on the line of the word. -/
theorem returns_complete {vs us : List Token} {before : Span} {v : Expr} (hv : E vs v)
    (hvs : ∀ t ∈ vs.head?, t.span.line ≤ first.line) (he : Grammar.Ends false before us s'.current)
    (passes : s.Passes (⟨.word .returnWord, first⟩ :: (vs ++ us)) s') :
    (returning expr).Reads s (.returns (first.merge (lastSpan vs)) (some v)) s' := by
  obtain ⟨hfirst, -, passes⟩ := passes.head
  obtain ⟨s₁, hvalue, hlast⟩ := passes.of_append
  have hread := h hs.taken ⟨hv, rank_of_ends he hlast⟩ hvalue
  have hprevious := hvalue.previous_eq (starts.ne_nil hv)
  obtain ⟨t, vs, rfl, ht⟩ := starts hv
  have hbegins {k : Kind} (hk : begins k = false) : s.taken.kind ≠ k := by
    rw [hvalue.kind]
    rintro rfl
    rw [hk] at ht
    cases ht
  have hline : ¬ first.line < s.taken.current.span.line := by
    rw [hvalue.head.1]
    exact Nat.not_lt.2 (hvs t rfl)
  unfold returning
  rw [reads_take, reads_get, hfirst]
  simp only
  rw [if_neg (by simp [hbegins, begins, Grammar.opens, signOp, stepOp, hline])]
  refine Reads.bind (reads_map.2 ⟨v, hread, rfl⟩) ?_
  rw [reads_since, hprevious]
  exact (endStatement_complete he hlast).bind (reads_pure.2 ⟨rfl, rfl⟩)

theorem returnsNothing_complete {us : List Token} (he : Grammar.Ends false first us s'.current)
    (passes : s.Passes (⟨.word .returnWord, first⟩ :: us) s') :
    (returning expr).Reads s (.returns (first.merge first) none) s' := by
  obtain ⟨hfirst, hne, hlast⟩ := passes.head
  have hnone : s.taken.kind = .endOfInput ∨ s.taken.kind = .symbol .semicolon ∨
      s.taken.kind = .symbol .rightBrace := by
    cases he with
    | semicolon => exact .inr (.inl hlast.kind)
    | brace hk =>
      cases hlast
      exact .inr (.inr hk)
    | finish hk =>
      cases hlast
      exact .inl hk
    | line hl _ => cases hl
  unfold returning
  rw [reads_take, reads_get]
  simp only
  rw [if_pos (by obtain hk | hk | hk := hnone <;> simp [hk])]
  refine Reads.bind (reads_pure.2 ⟨rfl, rfl⟩) ?_
  rw [reads_since, State.previous_taken (by rw [passes.kind]; exact hne), hfirst]
  exact (endStatement_complete he hlast).bind (reads_pure.2 ⟨rfl, rfl⟩)

/-- A jump is read in a loop. -/
theorem jump_complete {w : Token.Keyword} {word : String} {make : Span → Stmt} {us : List Token}
    (hloop : s.inLoop = true) (he : Grammar.Ends false first us s'.current)
    (passes : s.Passes (⟨.word w, first⟩ :: us) s') : (jump word make).Reads s (make first) s' := by
  obtain ⟨hfirst, -, hlast⟩ := passes.head
  have hloops : s.taken.loops ≠ 0 := by
    rw [State.taken_loops]
    simpa [State.inLoop] using hloop
  unfold jump
  rw [reads_take, reads_get, if_neg hloops, hfirst]
  exact (endStatement_complete he hlast).bind (reads_pure.2 ⟨rfl, rfl⟩)

include h hs in
theorem throwing_complete {vs us : List Token} {before : Span} {v : Expr} (hv : E vs v)
    (he : Grammar.Ends false before us s'.current)
    (passes : s.Passes (⟨.word .throwWord, first⟩ :: (vs ++ us)) s') :
    (throwing expr).Reads s (.throws (first.merge v.span) v) s' := by
  obtain ⟨hfirst, -, passes⟩ := passes.head
  obtain ⟨s₁, hvalue, hlast⟩ := passes.of_append
  unfold throwing
  rw [reads_take, hfirst]
  refine (h hs.taken ⟨hv, rank_of_ends he hlast⟩ hvalue).bind ?_
  exact (endStatement_complete he hlast).bind (reads_pure.2 ⟨rfl, rfl⟩)

include h hs in
theorem expressionStatement_complete {us : List Token} {before : Span} {e : Expr} (hE : E ts e)
    (he : Grammar.Ends false before us s'.current) (passes : s.Passes (ts ++ us) s') :
    (expressionStatement expr).Reads s (.expr e) s' := by
  obtain ⟨s₁, hfirst, hlast⟩ := passes.of_append
  unfold expressionStatement
  refine (h hs ⟨hE, rank_of_ends he hlast⟩ hfirst).bind ?_
  exact (endStatement_complete he hlast).bind (reads_pure.2 ⟨rfl, rfl⟩)

end Rules

end Blocks

/-! ## Statements of every kind -/

theorem declarator_cases {k : Kind} {how : Declarator} (h : declarator? k = some how) :
    k = .word .letWord ∧ how = .variable ∨ k = .word .constWord ∧ how = .constant := by
  cases k with
  | word w =>
    cases w with
    | letWord =>
      cases h
      exact .inl ⟨rfl, rfl⟩
    | constWord =>
      cases h
      exact .inr ⟨rfl, rfl⟩
    | _ => cases h
  | _ => cases h

section Statements

variable {n : Nat} {expr : ExprParser} {E : Phrase Expr} {s s' : State} {a : Stmt} {fuel : Nat}

/-- What begins like an expression, and not like a statement that is none, is read as an expression. -/
theorem reads_statement_expr (hbegins : begins s.kind = true) (hbrace : s.kind ≠ .symbol .leftBrace)
    (hfunction : s.kind = .word .functionWord → (s.kindAt 1).isName = false)
    (hreads : (expressionStatement expr).Reads s a s') :
    (statement expr (fuel + 1)).Reads s a s' := by
  unfold statement
  simp only
  rw [reads_get]
  cases hk : s.kind with
  | word w =>
    rw [hk] at hbegins
    cases w with
    | functionWord =>
      simp only
      rw [if_neg (by rw [hfunction hk]; exact Bool.false_ne_true)]
      exact hreads
    | _ => first | exact hreads | cases hbegins
  | symbol x =>
    rw [hk] at hbegins
    cases x with
    | leftBrace => exact absurd hk hbrace
    | _ => first | exact hreads | cases hbegins
  | _ => exact hreads

/-- After an expression that stands alone, no name comes next. -/
theorem not_name_of_ends {before : Span} {us : List Token}
    (h : Grammar.Ends false before us s'.current) (passes : s.Passes us s') : s.kind.isName = false := by
  cases h with
  | semicolon =>
    rw [passes.kind]
    rfl
  | brace hk | finish hk =>
    cases passes
    have hk : s.kind = _ := hk
    rw [hk]
    rfl
  | line hl _ => cases hl

/-- A statement is read where there is fuel for it. -/
theorem acceptsIn_statement [expr.Grows] (h : expr.Accepts n (Ended rank E)) (starts : Starts begins E)
    (fuel m : Nat) :
    AcceptsIn n (statement expr fuel) (Grammar.Short fuel (Grammar.Statement E false m)) := by
  induction fuel generalizing m with
  | zero =>
    intro loop ts s a s' _ _ ⟨hS, hlength⟩ _
    exact absurd (List.eq_nil_of_length_eq_zero (by omega)) (Grammar.ne_nil_statement starts hS)
  | succ fuel ih =>
    cases m with
    | zero => exact fun _ _ _ _ _ _ _ hS _ => hS.1.elim
    | succ m =>
      have hne {loop : Bool} {ts : List Token} {a : Stmt} {next : Token}
          (hS : Grammar.Short fuel (Grammar.Statement E false m) loop ts a next) : ts ≠ [] :=
        Grammar.ne_nil_statement starts hS.1
      have hstarts {loop : Bool} {ts : List Token} {a : Stmt} {next : Token}
          (hS : Grammar.Short fuel (Grammar.Statement E false m) loop ts a next) :
          ∃ t us, ts = t :: us ∧ t.kind ≠ .symbol .rightBrace :=
        Grammar.starts_statement starts hS.1
      intro loop s a s' ts hs hloop ⟨hrule, hlength⟩ passes
      have hshort : Grammar.Rule E false (Grammar.Short fuel (Grammar.Statement E false m)) loop ts a
          s'.current := Grammar.Rule.short hrule hlength
      unfold statement
      simp only
      rw [reads_get]
      cases hshort with
      | declaration hd he =>
        obtain ⟨how, hk, hread⟩ := declared_complete h starts hs hd he passes
        obtain ⟨hk', rfl⟩ | ⟨hk', rfl⟩ := declarator_cases hk
        · rw [hk']
          exact hread
        · rw [hk']
          exact hread
      | expr hE hopens he =>
        have hread := expressionStatement_complete h hs hE he passes
        obtain ⟨s₁, hfirst, hlast⟩ := passes.of_append
        obtain ⟨t, us, rfl, ht⟩ := starts hE
        simp only [Grammar.opensStatement, Bool.or_eq_false_iff, decide_eq_false_iff_not,
          Bool.and_eq_false_iff] at hopens
        rw [← hfirst.kind] at ht hopens
        have hfunction (hk : s.kind = .word .functionWord) : (s.kindAt 1).isName = false := by
          obtain hother | hname := hopens.2
          · exact absurd hk hother
          · rw [kindAt_one (by rw [hk]; decide)]
            cases us with
            | nil =>
              cases hfirst.head.2.2
              exact not_name_of_ends he hlast
            | cons u us =>
              rw [hfirst.head.2.2.kind]
              exact hname
        have hall : (statement expr (fuel + 1)).Reads s _ s' :=
          reads_statement_expr ht hopens.1 hfunction hread
        unfold statement at hall
        simp only at hall
        rwa [reads_get] at hall
      | returns hv hvs he =>
        rw [passes.kind]
        exact returns_complete h starts hs hv hvs he passes
      | returnsNothing he =>
        rw [passes.kind]
        exact returnsNothing_complete he passes
      | breaks he | continues he =>
        rw [passes.kind]
        exact jump_complete (hloop rfl) he passes
      | throws hv he =>
        rw [passes.kind]
        exact throwing_complete h hs hv he passes
      | ifThen hc hy hn =>
        rw [passes.kind]
        exact ifThen_complete h (ih m) hs hloop hc hy hn (hne hy) passes
      | ifElse hc hy hn =>
        rw [passes.kind]
        exact ifElse_complete h (ih m) hs hloop hc hy hn (hne hn) passes
      | whileLoop hc hb =>
        rw [passes.kind]
        exact whileLoop_complete h (ih m) hs hc hb (hne hb) passes
      | forLoop hl hc hp hb =>
        rw [passes.kind]
        exact forLoop_complete h starts (ih m) hs hl hc hp hb (hne hb) passes
      | forOf hk hi hb =>
        rw [passes.kind]
        exact forOf_complete h (ih m) hs hk hi hb (hne hb) passes
      | empty =>
        obtain ⟨hfirst, -, hnil⟩ := passes.head
        cases hnil
        rw [passes.kind]
        simp only
        rw [reads_take, hfirst]
        exact reads_pure.2 ⟨rfl, rfl⟩
      | block hbody =>
        have hprevious := passes.head.2.2.previous
        rw [passes.kind]
        simp only
        rw [reads_here, passes.head.1]
        refine (braced_complete (ih m) hstarts hs hloop hbody passes).bind ?_
        rw [reads_since, hprevious]
        exact reads_pure.2 ⟨rfl, rfl⟩
      | function hp hb =>
        have haccepted : Accepted n expr (braced (statement expr fuel)) E (Grammar.Braced
            (Grammar.Short fuel (Grammar.Statement E false m) false)) :=
          ⟨h, functionBody_complete (ih m) hstarts, starts, Grammar.starts_braced⟩
        have hname : (s.kindAt 1).isName = true := by
          rw [kindAt_one (by rw [passes.kind]; simp), passes.head.2.2.kind]
          rfl
        rw [passes.kind]
        simp only
        rw [if_pos hname]
        exact (haccepted.function hs (.named hp hb) passes).bind (reads_pure.2 ⟨rfl, rfl⟩)

end Statements

/-! ## Levels -/

section Levels

variable {n : Nat} {expr powerBelow operandBelow : ExprParser} {E W U : Phrase Expr} [expr.Grows]
  [operandBelow.Grows]

omit [operandBelow.Grows] in
theorem accepted_block (h : expr.Accepts n (Ended rank E)) (starts : Starts begins E) :
    Accepted n expr (block expr) E (Grammar.Block E false) where
  expr := h
  body := by
    intro s body s' ts hs ⟨m, hbody⟩ passes
    have hshort : Grammar.Braced
        (Grammar.Short s.rest.length (Grammar.Statement E false m) false) ts body := by
      have hlength := congrArg List.length passes.rest
      cases hbody with
      | mk hstatements =>
        simp only [List.length_cons, List.length_append] at hlength
        exact .mk (hstatements.short (by omega))
    have hstarts {loop : Bool} {ts : List Token} {a : Stmt} {next : Token}
        (hS : Grammar.Short s.rest.length (Grammar.Statement E false m) loop ts a next) :
        ∃ t us, ts = t :: us ∧ t.kind ≠ .symbol .rightBrace :=
      Grammar.starts_statement starts hS.1
    have hbraced := functionBody_complete (acceptsIn_statement h starts _ m) hstarts hs hshort passes
    obtain ⟨s₁, hread, rfl⟩ := reads_functionBody.1 hbraced
    refine reads_functionBody.2 ⟨s₁, ?_, rfl⟩
    unfold block
    rw [reads_get]
    exact hread
  starts := starts
  opens := Grammar.starts_block false

/-- The parsers of one level read what the grammar of the level says. -/
structure AcceptedLevel (n : Nat) (parsers : Level) (phrases : Grammar.Level) : Prop where
  expr : parsers.expr.Accepts n (Ended rank phrases.expr)
  power : parsers.power.Accepts n (Below rank 10 phrases.power)
  operand : parsers.operand.Accepts n (Below rank 11 phrases.operand)

theorem accepted_over (h : expr.Accepts n (Ended rank E)) (starts : Starts begins E)
    (power : (nested powerBelow).Accepts n (Below rank 10 W))
    (operand : (nested operandBelow).Accepts n (Below rank 11 U)) :
    AcceptedLevel n (Level.over expr powerBelow operandBelow) (Grammar.Level.over false E W U) := by
  have hoperand : Accepts n (Level.over expr powerBelow operandBelow).operand
      (Below rank 11 (Grammar.Level.over false E W U).operand) := by
    intro s e s' ts hs ⟨he, hrank⟩ passes
    have hlength := congrArg List.length passes.rest
    rw [List.length_append] at hlength
    unfold Level.over
    simp only
    rw [reads_get]
    exact (accepted_block h starts).unary operand hs (by omega) he hrank passes
  exact ⟨h, accepts_power hoperand power, hoperand⟩

end Levels

/-- A level with expressions but without powers and operands of its own. -/
theorem accepted_lowest {n : Nat} {E : Phrase Expr} (h : (level n).expr.Accepts n (Ended rank E))
    (starts : Starts begins E) :
    AcceptedLevel n (level n) (.over false E (fun _ _ => False) fun _ _ => False) := by
  have hnothing {p : ExprParser} {lowest : Nat} :
      p.Accepts n (Below rank lowest fun _ _ => False) := accepts_of_not fun _ _ _ h => h.1
  cases n with
  | zero => exact accepted_over h starts hnothing hnothing
  | succ n =>
    obtain ⟨_, _, _⟩ := grows_level n
    exact accepted_over h starts hnothing hnothing

theorem AcceptedLevel.next {n : Nat} {phrases : Grammar.Level} (h : AcceptedLevel n (level n) phrases)
    (starts : Starts begins phrases.expr) (powers : Starts begins phrases.power)
    (plain : Grammar.AllPlain phrases.power) :
    AcceptedLevel (n + 1) (level (n + 1)) (phrases.next false) := by
  obtain ⟨_, _, _⟩ := grows_level n
  have hexpr := ((accepted_block h.expr starts).assignment h.power plain).nested
  exact accepted_over hexpr (Grammar.starts_assignment powers) h.power.nested h.operand.nested

theorem accepted_level (n : Nat) : AcceptedLevel n (level n) (Grammar.level false n) := by
  induction n with
  | zero => exact accepted_lowest (accepts_of_not fun _ _ _ h => h.1) fun _ _ h => h.elim
  | succ n ih =>
    obtain ⟨hstarts, hpowers, -⟩ := Grammar.starts_level false n
    exact ih.next hstarts hpowers (Grammar.plain_power_level false n)

/-! ## Whole scripts -/

theorem topLevel_complete {n : Nat} {statement : StmtParser} [statement.Grows]
    {C : Bool → Grammar.Clause Stmt} (accepted : AcceptsIn n statement C)
    (starts : ∀ {loop ts s next}, C loop ts s next →
      ∃ t us, ts = t :: us ∧ t.kind ≠ .symbol .rightBrace)
    {fuel : Nat} {s s' : State} {ts : List Token} {body : List Stmt} (hs : s.Ready n)
    (hfuel : s.rest.length ≤ fuel) (hbody : Grammar.Statements (C false) ts body s'.current)
    (passes : s.Passes ts s') (hend : s'.kind = .endOfInput) :
    (topLevel statement fuel).Reads s body s' := by
  generalize hnext : s'.current = next at hbody
  induction hbody generalizing s fuel with
  | nil =>
    cases passes
    cases fuel with
    | zero => exact reads_pure.2 ⟨rfl, rfl⟩
    | succ fuel =>
      unfold topLevel
      rw [reads_sees, reads_get, if_pos (by simp [hend])]
      exact reads_pure.2 ⟨rfl, rfl⟩
  | @cons us vs a body next ha _ ih =>
    subst hnext
    obtain ⟨s₁, hfirst, hlast⟩ := passes.of_append
    obtain ⟨t, us, rfl, ht⟩ := starts ha
    obtain ⟨fuel, rfl, hle⟩ := hfirst.fuel hfuel
    rw [← hlast.current_eq] at ha
    have hread := accepted hs (by simp) ha hfirst
    have hrest := ih (hs.passes hfirst) hle hlast rfl
    unfold topLevel
    rw [reads_sees, reads_get, if_neg (by simp [hfirst.kind, hfirst.head.2.1, hs.going]), seesSymbol,
      reads_sees, if_neg (by simp [hfirst.kind, ht])]
    refine (reads_statementOrSkip.2 ⟨a, rfl, hread⟩).bind ?_
    exact hrest.bind (reads_pure.2 ⟨rfl, rfl⟩)

/-- Statements whose expressions are read are read as a whole script. -/
theorem reads_of_statements {E : Phrase Expr} (accepted : expression.Accepts maxNesting (Ended rank E))
    (starts : Starts begins E) {ts : List Token} {final : Token}
    (body : ∀ t ∈ ts, t.kind ≠ .endOfInput) (ends : final.kind = .endOfInput) {m : Nat}
    {statements : List Stmt}
    (h : Grammar.Statements (Grammar.Statement E false m false) ts statements final) :
    ∃ p s', p.body = statements ∧ whole.Reads (start (ts ++ [final])) p s' := by
  have hready : (start (ts ++ [final])).Ready maxNesting := ⟨rfl, rfl⟩
  have hexpression : expression.Grows := (grows_level maxNesting).1
  have htokens : (start (ts ++ [final])).rest = ts ++ [final] := rfl
  obtain ⟨s', passes, hrest⟩ := State.Passes.exists_of_rest htokens body
  have hend := kind_of_rest ends hrest
  have hstatement := acceptsIn_statement accepted starts (ts ++ [final]).length m
  rw [← current_of_rest hrest] at h
  have hread := topLevel_complete hstatement (fun hS => Grammar.starts_statement starts hS.1) hready
    (Nat.le_refl _) (Grammar.Statements.short h (by simp)) passes hend
  let p : Program := ⟨statements, (start (ts ++ [final])).current.span.merge s'.previous⟩
  refine ⟨p, s', rfl, ?_⟩
  unfold whole
  rw [reads_here, reads_get]
  refine hread.bind ?_
  rw [reads_since]
  exact reads_pure.2 ⟨rfl, rfl⟩

/-- What the tokens before the end write is read as a whole script. -/
theorem reads_of_written {ts : List Token} {final : Token} (body : ∀ t ∈ ts, t.kind ≠ .endOfInput)
    (ends : final.kind = .endOfInput) {statements : List Stmt}
    (h : Grammar.Written false ts statements final) :
    ∃ p s', p.body = statements ∧ whole.Reads (start (ts ++ [final])) p s' := by
  obtain ⟨m, h⟩ := h
  exact reads_of_statements (accepted_level maxNesting).expr (Grammar.starts_level false maxNesting).1
    body ends h

end Parser

section Compile

variable {src : Source}

/-- What is read of the tokens of a text without problems is what the text comes to. -/
theorem compile_of_reads {us : List Token} {p : Program} {s' : Workbook.Parser.State}
    (hlex : Token.lex .script src = (us, .empty))
    (hreads : Parser.whole.Reads (Workbook.Parser.start us) p s') : compile src = .ok p := by
  rw [Workbook.Parser.compile_script]
  refine Workbook.Parser.settled_of_reads Parser.grows_whole (by rw [hlex]) ?_
  rw [hlex]
  exact ⟨s', hreads⟩

/-- What the grammar says of the tokens of a text without problems is what the text comes to. -/
theorem compile_of_written {ts : List Token} {final : Token} {statements : List Stmt}
    (hlex : Token.lex .script src = (ts ++ [final], .empty))
    (body : ∀ t ∈ ts, t.kind ≠ .endOfInput) (ends : final.kind = .endOfInput)
    (h : Grammar.Written false ts statements final) :
    ∃ p, compile src = .ok p ∧ p.body = statements := by
  obtain ⟨p, s', hbody, hreads⟩ := Parser.reads_of_written body ends h
  exact ⟨p, compile_of_reads hlex hreads, hbody⟩

end Compile

end Script
end Workbook
