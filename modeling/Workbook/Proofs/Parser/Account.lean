/-
Nothing of a source text is dropped in silence (`sources_are_accounted_for`).

A function of a parser that comes to no result has reported a problem (`Part.lt_of_none`).  The parser
of scripts skips tokens where a statement could not be read, or at a closing brace that nothing
opened: after a problem in both cases (`on_statementOrSkip_none`, `on_topLevel_brace`).

So if a text has no problems, nothing has been skipped, and its tokens before the end write what it
comes to.  A text that comes to nothing has a problem that is kept.
-/
import Workbook.Proofs.Formula.Parsing
import Workbook.Proofs.Problem
import Workbook.Proofs.Script.Derivation
import Workbook.Proofs.Token.Layout

namespace Workbook

namespace Parser

open Token (Kind Keyword Symbol)
open Script.Parser (StmtParser)

/-! ## The functions of the parsers -/

/-- The functions that parse a language.  Some are given others, for what is inside of what they
read. -/
inductive Part : Language → ∀ {α : Type}, Parser α → Prop
  | expect {l : Language} (k : Kind) : Part l (expect k)
  | name {l : Language} : Part l name
  | memberName {l : Language} : Part l memberName
  | key {l : Language} : Part l key
  | tooDeep {l : Language} {α : Type} : Part l (reject (.tooDeep maxNesting) : Parser α)
  | nested {l : Language} {α : Type} {p : Parser α} (h : Part l p) : Part l (nested p)
  | separated {l : Language} {α : Type} {p : Parser α} (close : Symbol) (fuel : Nat) (h : Part l p) :
    Part l (separated close p fuel)
  | closedBy {l : Language} {α : Type} {p : Parser α} (close : Symbol) (h : Part l p) :
    Part l (closedBy close p)
  | parameters {l : Language} : Part l parameters
  | item {l : Language} {α : Type} {p : Parser α} (h : Part l p) : Part l (item p)
  | holes {l : Language} {α : Type} {p : Parser α} (cause : Problem.Cause) (fuel : Nat)
    (h : Part l p) : Part l (holes p cause fuel)
  | pieces {l : Language} {α : Type} {p : Parser α} (first : String) (cause : Problem.Cause)
    (h : Part l p) : Part l (pieces first p cause)
  -- formulas
  | branchOf {expr : Formula.Parser.ExprParser} (h : Part .formula expr) :
    Part .formula (Formula.Parser.branch expr)
  | bindingOf {expr : Formula.Parser.ExprParser} (h : Part .formula expr) :
    Part .formula (Formula.Parser.binding expr)
  | lambdaOf {expr : Formula.Parser.ExprParser} (h : Part .formula expr) :
    Part .formula (Formula.Parser.lambda expr)
  | entryOf {expr : Formula.Parser.ExprParser} (h : Part .formula expr) :
    Part .formula (Formula.Parser.entry expr)
  | primaryOf {expr : Formula.Parser.ExprParser} (h : Part .formula expr) :
    Part .formula (Formula.Parser.primary expr)
  | suffixesOf {expr : Formula.Parser.ExprParser} (fuel : Nat) (e : Formula.Expr)
    (h : Part .formula expr) : Part .formula (Formula.Parser.suffixes expr fuel e)
  | suffixedOf {expr : Formula.Parser.ExprParser} (h : Part .formula expr) :
    Part .formula (Formula.Parser.suffixed expr)
  | unaryOf {expr deeper : Formula.Parser.ExprParser} (h : Part .formula expr)
    (hd : Part .formula deeper) : Part .formula (Formula.Parser.unary expr deeper)
  | sumOf {operand : Formula.Parser.ExprParser} (h : Part .formula operand) :
    Part .formula (Formula.Parser.sum operand)
  | comparisonOf {operand : Formula.Parser.ExprParser} (h : Part .formula operand) :
    Part .formula (Formula.Parser.comparison operand)
  | disjunctionOf {operand : Formula.Parser.ExprParser} (h : Part .formula operand) :
    Part .formula (Formula.Parser.disjunction operand)
  | formulaExpr (n : Nat) : Part .formula (Formula.Parser.level n).expr
  | formulaOperand (n : Nat) : Part .formula (Formula.Parser.level n).operand
  | formula : Part .formula Formula.Parser.whole
  -- the expressions of scripts
  | functionBody {block : Script.Parser.BlockParser} (h : Part .script block) :
    Part .script (Script.Parser.functionBody block)
  | function {block : Script.Parser.BlockParser} (h : Part .script block) :
    Part .script (Script.Parser.function block)
  | arrow {expr : Script.Parser.ExprParser} {block : Script.Parser.BlockParser}
    (h : Part .script expr) (hb : Part .script block) : Part .script (Script.Parser.arrow expr block)
  | entryValue {expr : Script.Parser.ExprParser} {block : Script.Parser.BlockParser} (k : Name)
    (h : Part .script expr) (hb : Part .script block) :
    Part .script (Script.Parser.entryValue expr block k)
  | entry {expr : Script.Parser.ExprParser} {block : Script.Parser.BlockParser}
    (h : Part .script expr) (hb : Part .script block) : Part .script (Script.Parser.entry expr block)
  | primary {expr : Script.Parser.ExprParser} {block : Script.Parser.BlockParser}
    (h : Part .script expr) (hb : Part .script block) :
    Part .script (Script.Parser.primary expr block)
  | suffixes {expr : Script.Parser.ExprParser} (fuel : Nat) (e : Script.Expr)
    (h : Part .script expr) : Part .script (Script.Parser.suffixes expr fuel e)
  | suffixed {expr : Script.Parser.ExprParser} {block : Script.Parser.BlockParser}
    (h : Part .script expr) (hb : Part .script block) :
    Part .script (Script.Parser.suffixed expr block)
  | unary {expr deeper : Script.Parser.ExprParser} {block : Script.Parser.BlockParser} (steps : Nat)
    (h : Part .script expr) (hb : Part .script block) (hd : Part .script deeper) :
    Part .script (Script.Parser.unary expr block deeper steps)
  | power {operand deeper : Script.Parser.ExprParser} (h : Part .script operand)
    (hd : Part .script deeper) : Part .script (Script.Parser.power operand deeper)
  | joinedBy {operand : Script.Parser.ExprParser} (table : Symbol → Option Script.BinaryOp)
    (h : Part .script operand) : Part .script (Script.Parser.joinedBy table operand)
  | logicallyJoinedBy {operand : Script.Parser.ExprParser} (s : Symbol) (op : Script.LogicalOp)
    (h : Part .script operand) : Part .script (Script.Parser.logicallyJoinedBy s op operand)
  | conditional {expr power : Script.Parser.ExprParser} (h : Part .script expr)
    (hp : Part .script power) : Part .script (Script.Parser.conditional expr power)
  | assignment {expr power : Script.Parser.ExprParser} {block : Script.Parser.BlockParser}
    (h : Part .script expr) (hp : Part .script power) (hb : Part .script block) :
    Part .script (Script.Parser.assignment expr power block)
  | scriptExpr (n : Nat) : Part .script (Script.Parser.level n).expr
  | scriptPower (n : Nat) : Part .script (Script.Parser.level n).power
  | scriptOperand (n : Nat) : Part .script (Script.Parser.level n).operand
  -- the statements of scripts
  | endStatement : Part .script Script.Parser.endStatement
  | statements {statement : StmtParser} (fuel : Nat) (h : Part .script statement) :
    Part .script (Script.Parser.statements statement fuel)
  | braced {statement : StmtParser} (h : Part .script statement) :
    Part .script (Script.Parser.braced statement)
  | declaration {expr : Script.Parser.ExprParser} (how : Script.Declarator) (h : Part .script expr) :
    Part .script (Script.Parser.declaration how expr)
  | condition {expr : Script.Parser.ExprParser} (h : Part .script expr) :
    Part .script (Script.Parser.condition expr)
  | loopBody {statement : StmtParser} (h : Part .script statement) :
    Part .script (Script.Parser.loopBody statement)
  | branch {expr : Script.Parser.ExprParser} {statement : StmtParser} (h : Part .script expr)
    (hs : Part .script statement) : Part .script (Script.Parser.branch expr statement)
  | whileLoop {expr : Script.Parser.ExprParser} {statement : StmtParser} (h : Part .script expr)
    (hs : Part .script statement) : Part .script (Script.Parser.whileLoop expr statement)
  | upTo {expr : Script.Parser.ExprParser} (close : Symbol) (h : Part .script expr) :
    Part .script (Script.Parser.upTo close expr)
  | loopStart {expr : Script.Parser.ExprParser} (h : Part .script expr) :
    Part .script (Script.Parser.loopStart expr)
  | forLoop {expr : Script.Parser.ExprParser} {statement : StmtParser} (h : Part .script expr)
    (hs : Part .script statement) : Part .script (Script.Parser.forLoop expr statement)
  | returning {expr : Script.Parser.ExprParser} (h : Part .script expr) :
    Part .script (Script.Parser.returning expr)
  | jump (word : String) (make : Span → Script.Stmt) : Part .script (Script.Parser.jump word make)
  | throwing {expr : Script.Parser.ExprParser} (h : Part .script expr) :
    Part .script (Script.Parser.throwing expr)
  | declared {expr : Script.Parser.ExprParser} (how : Script.Declarator) (h : Part .script expr) :
    Part .script (Script.Parser.declared how expr)
  | expressionStatement {expr : Script.Parser.ExprParser} (h : Part .script expr) :
    Part .script (Script.Parser.expressionStatement expr)
  | statement {expr : Script.Parser.ExprParser} (fuel : Nat) (h : Part .script expr) :
    Part .script (Script.Parser.statement expr fuel)
  | block {expr : Script.Parser.ExprParser} (h : Part .script expr) :
    Part .script (Script.Parser.block expr)
  | topLevel {statement : StmtParser} (fuel : Nat) (h : Part .script statement) :
    Part .script (Script.Parser.topLevel statement fuel)
  | script : Part .script Script.Parser.whole

namespace Part

variable {l : Language} {α : Type} {p : Parser α} {s s' : State}

theorem grows (h : Part l p) : p.Grows := by
  induction h with
  | formulaExpr n => exact (Formula.Parser.grows_level n).1
  | formulaOperand n => exact (Formula.Parser.grows_level n).2
  | formula => exact Formula.Parser.grows_whole
  | scriptExpr n => exact (Script.Parser.grows_level n).1
  | scriptPower n => exact (Script.Parser.grows_level n).2.1
  | scriptOperand n => exact (Script.Parser.grows_level n).2.2
  | script => exact Script.Parser.grows_whole
  | _ => infer_instance

/-- No function of a parser gives up in silence. -/
theorem lt_of_none (h : Part l p) (hnone : p.on s = (none, s')) :
    s.problems.total < s'.problems.total :=
  h.grows.lt_of_none hnone

end Part

/-! ## What is skipped -/

section Skipped

open Script.Parser

variable {statement : StmtParser} {s s' : State}

/-- A statement is skipped after a problem with it. -/
theorem on_statementOrSkip_none (h : Part .script statement)
    (hskipped : (statementOrSkip statement).on s = (some none, s')) :
    ∃ s₁, statement.on s = (none, s₁) ∧ s.problems.total < s₁.problems.total ∧
      (skipBad s.rest.length).on s₁ = (some none, s') := by
  rw [on_statementOrSkip] at hskipped
  cases hs : statement.on s with
  | mk o s₁ =>
    rw [hs] at hskipped
    cases o with
    | none => exact ⟨s₁, rfl, h.lt_of_none hs, hskipped⟩
    | some a => cases hskipped

/-- A closing brace that nothing opened is skipped after a problem with it. -/
theorem on_topLevel_brace (fuel : Nat) (hk : s.kind = .symbol .rightBrace)
    (going : s.problems.isFull = false) : (topLevel statement (fuel + 1)).on s =
      (topLevel statement fuel).on (s.reporting .strayBrace).taken := by
  rw [on_topLevel_succ, if_neg (by simp [hk, going]), if_pos hk]

end Skipped

/-! ## Whole texts -/

section Whole

variable {l : Language} {α : Type} {p : Parser α} {s : Source} {a : α}

/-- What a parser comes to on the tokens of a text, and the problems with them. -/
def outcome (l : Language) (p : Parser α) (s : Source) : Option α × Problems :=
  ((p.on (start (Token.lex l s).1)).1,
    (Token.lex l s).2.append (p.on (start (Token.lex l s).1)).2.problems)

/-- A text that is written out comes to what its characters come to. -/
theorem outcome_ofList (l : Language) (p : Parser α) (path : String) (cs : List Char) :
    outcome l p ⟨path, String.ofList cs⟩ =
      ((p.on (start (Token.Lexer.lexFrom l .empty ⟨⟨cs, .start⟩, []⟩).1)).1,
        (Token.Lexer.lexFrom l .empty ⟨⟨cs, .start⟩, []⟩).2.append
          (p.on (start (Token.Lexer.lexFrom l .empty ⟨⟨cs, .start⟩, []⟩).1)).2.problems) := by
  unfold outcome
  rw [Token.lex_ofList]

/-- What a text is taken for: what it comes to if it has no problems. -/
def settled : Option α × Problems → Except Problems α
  | (some a, problems) => if problems.isEmpty then .ok a else .error problems
  | (none, problems) => .error problems

theorem compile_formula (s : Source) :
    Formula.compile s = settled (outcome .formula Formula.Parser.whole s) := by
  have hparse : Formula.parse s = outcome .formula Formula.Parser.whole s := rfl
  unfold Formula.compile
  rw [hparse]
  rcases outcome .formula Formula.Parser.whole s with ⟨_ | e, problems⟩ <;> rfl

theorem compile_script (s : Source) :
    Script.compile s = settled (outcome .script Script.Parser.whole s) := by
  have hparse : Script.parse s = outcome .script Script.Parser.whole s := rfl
  unfold Script.compile
  rw [hparse]
  rcases outcome .script Script.Parser.whole s with ⟨_ | p, problems⟩ <;> rfl

theorem settled_ok {r : Option α × Problems} (h : settled r = .ok a) :
    r.1 = some a ∧ r.2.isEmpty = true := by
  obtain ⟨_ | b, problems⟩ := r
  · cases h
  · by_cases hempty : problems.isEmpty = true
    · rw [settled, if_pos hempty] at h
      cases h
      exact ⟨rfl, hempty⟩
    · rw [settled, if_neg hempty] at h
      cases h

theorem settled_error {r : Option α × Problems} {problems : Problems}
    (h : settled r = .error problems) :
    problems = r.2 ∧ (r.1 = none ∨ ¬ r.2.isEmpty = true) := by
  obtain ⟨_ | b, problems'⟩ := r
  · cases h
    exact ⟨rfl, .inl rfl⟩
  · by_cases hempty : problems'.isEmpty = true
    · rw [settled, if_pos hempty] at h
      cases h
    · rw [settled, if_neg hempty] at h
      cases h
      exact ⟨rfl, .inr hempty⟩

/-- What a text without problems comes to is read from its tokens. -/
theorem reads_of_settled (h : settled (outcome l p s) = .ok a) :
    ∃ s', p.Reads (start (Token.lex l s).1) a s' := by
  obtain ⟨ha, hempty⟩ := settled_ok h
  obtain ⟨-, htotal⟩ := Problems.total_append _ _ hempty
  exact ⟨_, Prod.ext ha rfl, htotal⟩

/-- What is read from the tokens of a text without problems is what the text comes to. -/
theorem settled_of_reads (hp : p.Grows) (hlex : (Token.lex l s).2 = .empty)
    (h : ∃ s', p.Reads (start (Token.lex l s).1) a s') : settled (outcome l p s) = .ok a := by
  obtain ⟨s', h⟩ := h
  obtain ⟨ps, hps, -⟩ := hp.adds (start (Token.lex l s).1)
  rw [h.on] at hps
  have hproblems : s'.problems = Problems.empty.pushAll ps := hps
  have hclean := h.clean
  rw [hproblems, Problems.total_pushAll] at hclean
  obtain rfl := List.eq_nil_of_length_eq_zero (Nat.add_left_cancel hclean)
  unfold outcome
  rw [h.on, hlex, hproblems]
  rfl

/-- Of the problems with a text that comes to nothing one is kept. -/
theorem kept_of_settled (hp : Part l p) {problems : Problems}
    (h : settled (outcome l p s) = .error problems) : problems.kept ≠ [] := by
  obtain ⟨rfl, hfails⟩ := settled_error h
  obtain ⟨qs, hqs⟩ := Token.Lexer.problems_lexFrom l .empty ⟨Cursor.start s.text, []⟩
  obtain ⟨rs, hrs, hnone⟩ := hp.grows.adds (start (Token.lex l s).1)
  have hlex : (Token.lex l s).2 = Problems.empty.pushAll qs := hqs
  have hall : (outcome l p s).2 = (Problems.empty.pushAll qs).append (Problems.empty.pushAll rs) := by
    unfold outcome
    rw [hlex, hrs]
    rfl
  rw [hall]
  refine Problems.kept_append ?_
  rcases hfails with hnothing | hproblems
  · exact .inr (hnone hnothing)
  · rw [hall] at hproblems
    by_cases hqs : qs = []
    · refine .inr fun hnil => hproblems ?_
      rw [hqs, hnil]
      rfl
    · exact .inl hqs

end Whole

/-- The tokens before the end of a text write the formula that it comes to. -/
theorem written_of_compile_formula {s : Source} {e : Formula.Expr} (h : Formula.compile s = .ok e) :
    ∃ (ts : List Token) (final : Token), (Token.lex .formula s).1 = ts ++ [final] ∧
      final.kind = .endOfInput ∧
      (∀ t ∈ ts, t.kind ≠ .endOfInput) ∧ Formula.Grammar.Written final.span ts e := by
  rw [compile_formula] at h
  obtain ⟨ts, final, htokens, ends, body⟩ := Token.lex_eq_concat .formula s
  obtain ⟨s', hreads⟩ := reads_of_settled h
  rw [htokens] at hreads
  exact ⟨ts, final, htokens, ends, body,
    (Formula.Parser.reads_whole_iff body ends ⟨rfl, rfl⟩ rfl).1 ⟨s', hreads⟩⟩

/-- The tokens before the end of a text write the statements that it comes to. -/
theorem written_of_compile_script {s : Source} {p : Script.Program} (h : Script.compile s = .ok p) :
    ∃ ts final, (Token.lex .script s).1 = ts ++ [final] ∧ final.kind = .endOfInput ∧
      (∀ t ∈ ts, t.kind ≠ .endOfInput) ∧ Script.Grammar.Written true ts p.body final := by
  rw [compile_script] at h
  obtain ⟨ts, final, htokens, ends, body⟩ := Token.lex_eq_concat .script s
  obtain ⟨s', hreads⟩ := reads_of_settled h
  rw [htokens] at hreads
  exact ⟨ts, final, htokens, ends, body, Script.Parser.written_of_reads body ends hreads⟩

/-- Nothing of a source text is dropped in silence.  A function of a parser that comes to no result
has reported a problem.  So has the parser of scripts before it skips tokens: those of a statement
that it could not read, or a closing brace that nothing opened.

If a text has no problems, all of its tokens before the end, one after the other, write what it comes
to: a formula, or the statements of a script.  If it has any, one of them is kept. -/
theorem sources_are_accounted_for :
    (∀ {l : Language} {α : Type} {p : Parser α} {t t' : State}, Part l p → p.on t = (none, t') →
      t.problems.total < t'.problems.total) ∧
    (∀ {statement : StmtParser} {t t' : State}, Part .script statement →
      (Script.Parser.statementOrSkip statement).on t = (some none, t') →
      ∃ t₁, statement.on t = (none, t₁) ∧ t.problems.total < t₁.problems.total) ∧
    (∀ {statement : StmtParser} {fuel : Nat} {t : State}, t.kind = .symbol .rightBrace →
      t.problems.isFull = false → (Script.Parser.topLevel statement (fuel + 1)).on t =
        (Script.Parser.topLevel statement fuel).on (t.reporting .strayBrace).taken) ∧
    (∀ (s : Source) (e : Formula.Expr), Formula.compile s = .ok e →
      ∃ ts final, (Token.lex .formula s).1 = ts ++ [final] ∧ final.kind = .endOfInput ∧
        (∀ t ∈ ts, t.kind ≠ .endOfInput) ∧ Formula.Grammar.Written final.span ts e) ∧
    (∀ (s : Source) (p : Script.Program), Script.compile s = .ok p →
      ∃ ts final, (Token.lex .script s).1 = ts ++ [final] ∧ final.kind = .endOfInput ∧
        (∀ t ∈ ts, t.kind ≠ .endOfInput) ∧ Script.Grammar.Written true ts p.body final) ∧
    (∀ (s : Source) (problems : Problems), Formula.compile s = .error problems ∨
      Script.compile s = .error problems → problems.kept ≠ []) := by
  refine ⟨fun h => h.lt_of_none, fun h hskipped => ?_, fun hk going => on_topLevel_brace _ hk going,
    fun s e => written_of_compile_formula, fun s p => written_of_compile_script,
    fun s problems h => ?_⟩
  · obtain ⟨t₁, hnone, hlt, -⟩ := on_statementOrSkip_none h hskipped
    exact ⟨t₁, hnone, hlt⟩
  · rcases h with h | h
    · rw [compile_formula] at h
      exact kept_of_settled .formula h
    · rw [compile_script] at h
      exact kept_of_settled .script h

end Parser
end Workbook
