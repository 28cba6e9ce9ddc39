/-
The order in which the problems of a formula are reported.

The parser of formulas takes tokens and reports problems with the token ahead, and nothing else
(`State.Step`).  So what it reports is in source order (`State.Reported.of_steps`).  So is what is wrong
with characters, but for a string without an end: it begins before what is wrong inside of it, and is
reported after that (`Token.before_lex`).

The details of a formula that does not parse have both, one after the other (`unparsed_in_two_rounds`).
They are in source order where there is one sort only (`InTwoRounds.inSourceOrder`), and in general they
are not (`string_reported_last`).
-/
import Mathlib
import Workbook.Proofs.Extent
import Workbook.Proofs.Formula.Parsing
import Workbook.Proofs.Parser.Account
import Workbook.Proofs.Session.Query

open Relation (ReflTransGen)

namespace Workbook

namespace Parser

open Token (Kind Keyword Symbol)

variable {α β : Type}

/-! ## Steps of a parser -/

/-- What a parser does at once: it takes the token ahead, reports a problem with it, or counts what is
open. -/
inductive State.Step (s : State) : State → Prop
  | taken : Step s s.taken
  | reporting (cause : Problem.Cause) : Step s (s.reporting cause)
  | alike {s' : State} (h : s.Alike s') : Step s s'

/-- What a parser does is a number of steps. -/
class Stepwise (p : Parser α) : Prop where
  on (s : State) : ReflTransGen State.Step s (p.on s).2

namespace Stepwise

variable {p : Parser α} {f : α → Parser β}

/-- A parser that leaves the state as it was. -/
theorem quiet (h : ∀ s, (p.on s).2 = s) : p.Stepwise where
  on s := by rw [h]

instance (a : α) : (pure a : Parser α).Stepwise := quiet fun _ => rfl

theorem bind (hp : p.Stepwise) (hf : ∀ a, (f a).Stepwise) : (p >>= f).Stepwise where
  on s := by
    rw [on_bind]
    cases (p.on s).1 with
    | none => exact hp.on s
    | some a => exact (hp.on s).trans ((hf a).on _)

instance [hp : p.Stepwise] [hf : ∀ a, (f a).Stepwise] : (p >>= f).Stepwise :=
  .bind hp hf

instance [h : p.Stepwise] (f : α → β) : (f <$> p).Stepwise where
  on s := by
    rw [on_map]
    exact h.on s

instance {c : Prop} [Decidable c] {p q : Parser α} [p.Stepwise] [q.Stepwise] :
    (if c then p else q).Stepwise := by
  split <;> infer_instance

instance : (get : Parser State).Stepwise := quiet fun _ => rfl

instance : peek.Stepwise := quiet fun _ => rfl

instance : here.Stepwise := quiet fun _ => rfl

instance (first : Span) : (since first).Stepwise := quiet fun _ => rfl

instance (k : Kind) : (sees k).Stepwise := quiet fun _ => rfl

instance (s : Symbol) : (seesSymbol s).Stepwise := quiet fun _ => rfl

instance : seesShorthand.Stepwise := quiet fun _ => rfl

instance : take.Stepwise where
  on _ := .single .taken

instance (k : Kind) : (eats k).Stepwise := by
  unfold eats
  infer_instance

instance (s : Symbol) : (eatsSymbol s).Stepwise := inferInstanceAs (eats _).Stepwise

instance (cause : Problem.Cause) : (report cause).Stepwise where
  on _ := .single (.reporting cause)

instance (cause : Problem.Cause) : (reject cause : Parser α).Stepwise where
  on _ := .single (.reporting cause)

instance (k : Kind) : (expect k).Stepwise := by
  unfold expect
  infer_instance

instance (s : Symbol) : (expectSymbol s).Stepwise := inferInstanceAs (expect _).Stepwise

instance (w : Keyword) : (expectWord w).Stepwise := inferInstanceAs (expect _).Stepwise

theorem of_takesName {p : Parser Name} (h : TakesName p) : p.Stepwise where
  on s := by
    obtain ⟨text, hon⟩ | ⟨cause, hon⟩ := h s
    · rw [hon]
      exact .single .taken
    · rw [hon]
      exact .single (.reporting cause)

instance : name.Stepwise := of_takesName takesName_name

instance : memberName.Stepwise := of_takesName takesName_memberName

instance : key.Stepwise := of_takesName takesName_key

instance [h : p.Stepwise] : (nested p).Stepwise where
  on s := by
    rw [on_nested]
    split
    · exact .single (.reporting _)
    · have hdeeper : s.Step s.deeper := .alike ⟨rfl, rfl, rfl⟩
      have hshallower : (p.on s.deeper).2.Step (p.on s.deeper).2.shallower := .alike ⟨rfl, rfl, rfl⟩
      exact ((h.on s.deeper).head hdeeper).tail hshallower

instance {next : Parser (Option (α → α → α))} [next.Stepwise] [p.Stepwise] (fuel : Nat) (left : α) :
    (chain next p fuel left).Stepwise := by
  induction fuel generalizing left with
  | zero => unfold chain; infer_instance
  | succ fuel ih =>
    unfold chain
    refine .bind inferInstance fun join => ?_
    split <;> infer_instance

instance {next : Parser (Option (α → α → α))} [next.Stepwise] [p.Stepwise] :
    (operands next p).Stepwise := by
  unfold operands
  infer_instance

instance (table : Symbol → Option β) : (operator table).Stepwise := by
  unfold operator
  refine .bind inferInstance fun k => ?_
  split
  · split <;> infer_instance
  · infer_instance

instance (close : Symbol) [p.Stepwise] (fuel : Nat) : (separated close p fuel).Stepwise := by
  induction fuel with
  | zero => unfold separated; infer_instance
  | succ fuel ih => unfold separated; infer_instance

instance (close : Symbol) [p.Stepwise] : (closedBy close p).Stepwise := by
  unfold closedBy
  infer_instance

instance : parameters.Stepwise := by
  unfold parameters
  infer_instance

instance [p.Stepwise] : (item p).Stepwise := by
  unfold item
  infer_instance

instance [p.Stepwise] (cause : Problem.Cause) (fuel : Nat) : (holes p cause fuel).Stepwise := by
  induction fuel with
  | zero => unfold holes; infer_instance
  | succ fuel ih =>
    unfold holes
    refine .bind inferInstance fun _ => .bind inferInstance fun _ => .bind inferInstance fun _ =>
      .bind inferInstance fun k => ?_
    split <;> infer_instance

instance [p.Stepwise] (first : String) (cause : Problem.Cause) : (pieces first p cause).Stepwise := by
  unfold pieces
  infer_instance

end Stepwise

/-- What has been reported between two states is in source order, up to the token that is ahead now. -/
structure State.Reported (src : Source) (s s' : State) (ps : List Problem) : Prop where
  onward : s.Onward src s'
  problems : s'.problems = s.problems.pushAll ps
  order : ps.Pairwise fun p q => p.span.start ≤ q.span.start
  le : ∀ p ∈ ps, p.span.start ≤ s'.current.span.start

namespace State.Reported

variable {src : Source} {s s₁ s' : State} {ps : List Problem}

/-- The state goes on with no more problems. -/
theorem quiet (h : s.Reported src s₁ ps) (honward : s₁.Onward src s')
    (hproblems : s'.problems = s₁.problems) : s.Reported src s' ps where
  onward := h.onward.trans honward
  problems := hproblems.trans h.problems
  order := h.order
  le p hp := Nat.le_trans (h.le p hp) honward.current_le

/-- A problem with the token ahead comes after those with tokens before it. -/
theorem report (h : s.Reported src s₁ ps) (cause : Problem.Cause) :
    s.Reported src (s₁.reporting cause) (ps ++ [⟨cause, s₁.current.span⟩]) where
  onward := h.onward.trans (h.onward.inOrder.reporting h.onward.inOrder.current cause)
  problems := by
    rw [← Problems.pushAll_append, ← h.problems]
    rfl
  order := by
    refine List.pairwise_append.2 ⟨h.order, List.pairwise_singleton _ _, fun p hp q hq => ?_⟩
    obtain rfl := List.mem_singleton.1 hq
    exact h.le p hp
  le p hp := by
    obtain hp | hp := List.mem_append.1 hp
    · exact h.le p hp
    · obtain rfl := List.mem_singleton.1 hp
      exact Nat.le_refl _

theorem step (h : s.Reported src s₁ ps) (hstep : s₁.Step s') : ∃ qs, s.Reported src s' qs := by
  cases hstep with
  | taken => exact ⟨ps, h.quiet h.onward.inOrder.taken s₁.taken_problems⟩
  | reporting cause => exact ⟨_, h.report cause⟩
  | alike halike => exact ⟨ps, h.quiet (h.onward.inOrder.alike halike) halike.problems⟩

/-- What is reported by steps is in source order. -/
theorem of_steps (hs : s.InOrder src) (h : ReflTransGen State.Step s s') :
    ∃ ps, s.Reported src s' ps := by
  induction h with
  | refl => exact ⟨[], hs.onward, rfl, .nil, fun _ hp => by cases hp⟩
  | tail _ hstep ih =>
    obtain ⟨ps, hps⟩ := ih
    exact hps.step hstep

end State.Reported

end Parser

namespace Formula
namespace Parser

open Workbook.Parser
open Token (Symbol)

/-! ## Steps of the parser of formulas -/

section Steps

variable {expr deeper operand : ExprParser}

instance [expr.Stepwise] : (branch expr).Stepwise := by
  unfold branch
  infer_instance

instance [expr.Stepwise] : (binding expr).Stepwise := by
  unfold binding
  infer_instance

instance [expr.Stepwise] : (lambda expr).Stepwise := by
  unfold lambda
  infer_instance

instance [expr.Stepwise] : (entry expr).Stepwise := by
  unfold entry
  infer_instance

instance [expr.Stepwise] : (primary expr).Stepwise := by
  unfold primary
  refine .bind inferInstance fun k => ?_
  split <;> infer_instance

instance [expr.Stepwise] (fuel : Nat) (e : Expr) : (suffixes expr fuel e).Stepwise := by
  induction fuel generalizing e with
  | zero => unfold suffixes; infer_instance
  | succ fuel ih =>
    unfold suffixes
    refine .bind inferInstance fun k => ?_
    split <;> infer_instance

instance [expr.Stepwise] : (suffixed expr).Stepwise := by
  unfold suffixed
  infer_instance

instance [deeper.Stepwise] (op : UnaryOp) : (unary.signed deeper op).Stepwise := by
  unfold unary.signed
  infer_instance

instance [expr.Stepwise] [deeper.Stepwise] : (unary expr deeper).Stepwise := by
  unfold unary
  refine .bind inferInstance fun k => ?_
  split <;> infer_instance

instance (table : Symbol → Option BinaryOp) : (joining table).Stepwise := by
  unfold joining
  infer_instance

instance : coalescing.Stepwise := by
  unfold coalescing
  infer_instance

instance (w : Token.Keyword) (op : BinaryOp) : (wordOp w op).Stepwise := by
  unfold wordOp
  infer_instance

instance : chained.Stepwise := by
  unfold chained
  refine .bind inferInstance fun k => ?_
  split <;> infer_instance

instance [operand.Stepwise] : (sum operand).Stepwise := by
  unfold sum
  infer_instance

instance [operand.Stepwise] (left : Expr) : (comparisonRest operand left).Stepwise := by
  unfold comparisonRest
  refine .bind inferInstance fun join => ?_
  split <;> infer_instance

instance [operand.Stepwise] : (comparison operand).Stepwise := by
  rw [comparison_eq]
  infer_instance

instance [operand.Stepwise] : (disjunction operand).Stepwise := by
  unfold disjunction
  infer_instance

theorem stepwise_level (n : Nat) : (level n).expr.Stepwise ∧ (level n).operand.Stepwise := by
  induction n with
  | zero =>
    unfold level
    exact ⟨inferInstance, inferInstance⟩
  | succ n ih =>
    obtain ⟨_, _⟩ := ih
    unfold level
    exact ⟨inferInstance, inferInstance⟩

instance (e : Expr) : (finish e).Stepwise := by
  unfold finish
  infer_instance

theorem stepwise_whole : whole.Stepwise := by
  have : expression.Stepwise := (stepwise_level maxNesting).1
  rw [whole_eq]
  infer_instance

end Steps

end Parser

/-! ## What an evaluation reports -/

section Details

open Workbook.Parser

/-- What an outcome says about a problem. -/
def problemDetail (source : Source) (p : Problem) : Detail :=
  ⟨.parser, p.cause.message, some (source.locate p.span), none⟩

/-- The details of a formula, up to their limit, are those of the problems with its characters and then
those of the problems with its tokens.  Both sorts are in order, each for itself. -/
structure InTwoRounds (source : Source) (lexical syntactic : List Problem) (details : List Detail) :
    Prop where
  characters : (Token.lex .formula source).2 = .pushAll .empty lexical
  tokens : (Parser.whole.on (start (Token.lex .formula source).1)).2.problems =
    .pushAll .empty syntactic
  details : details = ((lexical ++ syntactic).take Problems.limit).map (problemDetail source)
  lexicalOrder : lexical.Pairwise Problem.Before
  syntacticOrder : syntactic.Pairwise fun p q => p.span.start ≤ q.span.start

namespace InTwoRounds

variable {source : Source} {lexical syntactic : List Problem} {details : List Detail}

/-- The details are in source order if all of them are about tokens, or all about characters and none
about a string without an end. -/
theorem inSourceOrder (h : InTwoRounds source lexical syntactic details)
    (hsort : lexical = [] ∨ syntactic = [] ∧ ∀ p ∈ lexical, p.cause ≠ .unterminatedString) :
    ∃ places : List (Location × Excerpt), details.map Detail.place = places.map some ∧
      places.Pairwise fun a b => a.1.index ≤ b.1.index := by
  refine ⟨((lexical ++ syntactic).take Problems.limit).map fun p => source.locate p.span, ?_, ?_⟩
  · rw [h.details, List.map_map, List.map_map]
    rfl
  refine List.pairwise_map.2 ?_
  obtain rfl | ⟨rfl, hcause⟩ := hsort
  · exact h.syntacticOrder.sublist (List.take_sublist _ _)
  rw [List.append_nil]
  have hkept : (Token.lex .formula source).2.kept = lexical.take Problems.limit := by
    rw [h.characters, Problems.kept_pushAll_empty]
  have horder := h.lexicalOrder.sublist (List.take_sublist Problems.limit lexical)
  refine horder.imp_of_mem fun {p q} hp hq hbefore => ?_
  have hspan := (Token.sound_lex .formula source p (by rw [hkept]; exact hp)).le
  have hnext := hbefore.2.resolve_right (hcause q (List.mem_of_mem_take hq))
  exact Nat.le_trans hspan hnext

end InTwoRounds

/-- A formula that does not parse fails, and its details come in two rounds.  What comes first of them
is the message of the failure. -/
theorem unparsed_in_two_rounds {engine : Engine} {place : Nat} {σ : Session}
    {node : Outline.Expression} {source : Source} {ps : Problems} (s : Store)
    (hsource : source = ⟨node.path, σ.sourceText node⟩) (h : compile source = .error ps) :
    ∃ lexical syntactic first more,
      engine.executeFormula place σ node s = .ok (.failure first more) s ∧
      InTwoRounds source lexical syntactic (first :: more) := by
  obtain ⟨lexical, hlexical, lexicalOrder⟩ := Token.before_lex .formula source
  obtain ⟨syntactic, reported⟩ := State.Reported.of_steps (inOrder_start .formula source)
    (Parser.stepwise_whole.on (start (Token.lex .formula source).1))
  have hcompile := h
  rw [compile_formula] at hcompile
  have hkept : ps.kept = (lexical ++ syntactic).take Problems.limit := by
    rw [(settled_error hcompile).1]
    show ((Token.lex .formula source).2.append _).kept = _
    rw [hlexical, reported.problems]
    exact Problems.kept_append_pushAll lexical syntactic
  obtain ⟨p, qs, hcons⟩ := List.exists_cons_of_ne_nil (kept_of_settled .formula hcompile)
  have hrun : engine.executeFormula place σ node s = .ok (.unreadableFormula source ps) s := by
    unfold Engine.executeFormula
    rw [← hsource]
    simp only [h]
    rfl
  have houtcome : Outcome.unreadableFormula source ps =
      .failure (problemDetail source p) (qs.map (problemDetail source)) := by
    unfold Outcome.unreadableFormula Outcome.problemDetails
    rw [hcons]
    rfl
  rw [houtcome] at hrun
  refine ⟨lexical, syntactic, _, _, hrun, hlexical, reported.problems, ?_, lexicalOrder, reported.order⟩
  rw [← hkept, hcons, List.map_cons]

/-- A session of a workbook with one formula. -/
def single (text : String) : Session :=
  .start ⟨[("", some [⟨.expression, "a", 1, some .formula⟩])], [("a", some text)], 2⟩ .standard []
    .null .null 0 0

/-- The formula of such a workbook. -/
def only : Outline.Expression :=
  ⟨"a", "a", ["a"], .formula, 1, ""⟩

theorem source_single (text : String) :
    (⟨"a", text⟩ : Source) = ⟨only.path, (single text).sourceText only⟩ := rfl

/-- A parenthesis that closes nothing, before a string without an end with a bad escape in it: the three
problems, from the right to the left. -/
theorem problems_from_right_to_left :
    compile ⟨"a", "1 ) \"\\q"⟩ = .error ⟨[⟨.badEscape 'q', ⟨5, 7, 1, 6⟩⟩,
      ⟨.unterminatedString, ⟨4, 7, 1, 5⟩⟩, ⟨.trailingInput (.symbol .rightParen), ⟨2, 3, 1, 3⟩⟩], 3⟩ ∧
    ∃ lexical syntactic first more,
      (Engine.ofFuel 0).executeFormula 0 (single "1 ) \"\\q") only .empty =
        .ok (.failure first more) .empty ∧
      InTwoRounds ⟨"a", "1 ) \"\\q"⟩ lexical syntactic (first :: more) := by
  have hcompile : compile ⟨"a", "1 ) \"\\q"⟩ = .error ⟨[⟨.badEscape 'q', ⟨5, 7, 1, 6⟩⟩,
      ⟨.unterminatedString, ⟨4, 7, 1, 5⟩⟩, ⟨.trailingInput (.symbol .rightParen), ⟨2, 3, 1, 3⟩⟩],
      3⟩ := by
    have hlex : Token.lex .formula ⟨"a", "1 ) \"\\q"⟩ = ([⟨.number (.integer 1), ⟨0, 1, 1, 1⟩⟩,
        ⟨.symbol .rightParen, ⟨2, 3, 1, 3⟩⟩, ⟨.string "q", ⟨4, 7, 1, 5⟩⟩, ⟨.endOfInput, ⟨7, 7, 1, 8⟩⟩],
        ⟨[⟨.badEscape 'q', ⟨5, 7, 1, 6⟩⟩, ⟨.unterminatedString, ⟨4, 7, 1, 5⟩⟩], 2⟩) := by
      rw [Token.lex_ofList]
      with_unfolding_all rfl
    unfold compile parse
    rw [hlex]
    with_unfolding_all rfl
  exact ⟨hcompile, unparsed_in_two_rounds .empty (source_single _) hcompile⟩

/-- A string without an end begins before what is wrong inside of it, and is reported after that. -/
theorem string_reported_last : ∃ inside string : Location × Excerpt,
    (Engine.ofFuel 0).executeFormula 0 (single "\"\\q") only .empty =
      .ok (.failure ⟨.parser, "Invalid escape sequence '\\q'", some inside, none⟩
        [⟨.parser, "Unterminated string literal", some string, none⟩]) .empty ∧
    inside.1.index = 1 ∧ string.1.index = 0 := by
  have hcompile : compile ⟨only.path, (single "\"\\q").sourceText only⟩ =
      .error ⟨[⟨.badEscape 'q', ⟨1, 3, 1, 2⟩⟩, ⟨.unterminatedString, ⟨0, 3, 1, 1⟩⟩], 2⟩ := by
    have hlex : Token.lex .formula ⟨"a", "\"\\q"⟩ =
        ([⟨.string "q", ⟨0, 3, 1, 1⟩⟩, ⟨.endOfInput, ⟨3, 3, 1, 4⟩⟩],
          ⟨[⟨.badEscape 'q', ⟨1, 3, 1, 2⟩⟩, ⟨.unterminatedString, ⟨0, 3, 1, 1⟩⟩], 2⟩) := by
      rw [Token.lex_ofList]
      with_unfolding_all rfl
    rw [← source_single]
    unfold compile parse
    rw [hlex]
    with_unfolding_all rfl
  refine ⟨Source.locate ⟨"a", "\"\\q"⟩ ⟨1, 3, 1, 2⟩, Source.locate ⟨"a", "\"\\q"⟩ ⟨0, 3, 1, 1⟩, ?_, rfl,
    rfl⟩
  unfold Engine.executeFormula
  simp only [hcompile]
  rw [← source_single]
  rfl

end Details

end Formula
end Workbook
