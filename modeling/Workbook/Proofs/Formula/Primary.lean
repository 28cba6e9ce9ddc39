/-
What the parser of formulas reads as an operand that stands for itself: what the grammar says, and
nothing else (`matches_primary`).

The parser is given the parser of the expressions inside of it, and the grammar what these are.  An
expression is read only where no operator and no suffix follows it, which is so before all tokens
that come after an expression in a bracket, in a string or in a form.
-/
import Workbook.Proofs.Formula.Grammar

namespace Workbook
namespace Formula
namespace Parser

open Token (Kind Symbol)
open Workbook.Parser
open Grammar (rank Entries Primary)

/-! ## Growth -/

section Growth

variable {expr deeper operand : ExprParser}

instance [expr.Grows] : (branch expr).Grows := by
  unfold branch
  infer_instance

instance [expr.Grows] : (binding expr).Grows := by
  unfold binding
  infer_instance

instance [expr.Grows] : (lambda expr).Grows := by
  unfold lambda
  infer_instance

instance [expr.Grows] : (entry expr).Grows := by
  unfold entry
  infer_instance

instance [expr.Grows] : (primary expr).Grows := by
  unfold primary
  refine .bind inferInstance fun k => ?_
  split <;> infer_instance

instance [expr.Grows] (fuel : Nat) (e : Expr) : (suffixes expr fuel e).Grows := by
  induction fuel generalizing e with
  | zero => unfold suffixes; infer_instance
  | succ fuel ih =>
    unfold suffixes
    refine .bind inferInstance fun k => ?_
    split <;> infer_instance

instance [expr.Grows] : (suffixed expr).Grows := by
  unfold suffixed
  infer_instance

instance [deeper.Grows] (op : UnaryOp) : (unary.signed deeper op).Grows := by
  unfold unary.signed
  infer_instance

instance [expr.Grows] [deeper.Grows] : (unary expr deeper).Grows := by
  unfold unary
  refine .bind inferInstance fun k => ?_
  split <;> infer_instance

instance (table : Symbol → Option BinaryOp) : (joining table).Grows := by
  unfold joining
  infer_instance

instance : coalescing.Grows := by
  unfold coalescing
  infer_instance

instance (w : Token.Keyword) (op : BinaryOp) : (wordOp w op).Grows := by
  unfold wordOp
  infer_instance

instance : chained.Grows := by
  unfold chained
  refine .bind inferInstance fun k => ?_
  split <;> infer_instance

instance [operand.Grows] : (sum operand).Grows := by
  unfold sum
  infer_instance

/-- What comes after the left operand of a comparison. -/
def comparisonRest (operand : ExprParser) (left : Expr) : ExprParser := do
  match ← joining comparisonOp with
  | none => return left
  | some join =>
    let right ← sum operand
    chain chained (sum operand) (← get).rest.length (join left right)

theorem comparison_eq (operand : ExprParser) :
    comparison operand = sum operand >>= comparisonRest operand := rfl

instance [operand.Grows] (left : Expr) : (comparisonRest operand left).Grows := by
  unfold comparisonRest
  refine .bind inferInstance fun join => ?_
  split <;> infer_instance

instance [operand.Grows] : (comparison operand).Grows := by
  rw [comparison_eq]
  infer_instance

instance [operand.Grows] : (disjunction operand).Grows := by
  unfold disjunction
  infer_instance

theorem grows_level (n : Nat) : (level n).expr.Grows ∧ (level n).operand.Grows := by
  induction n with
  | zero =>
    unfold level
    exact ⟨inferInstance, inferInstance⟩
  | succ n ih =>
    obtain ⟨_, _⟩ := ih
    unfold level
    exact ⟨inferInstance, inferInstance⟩

end Growth

/-! ## Entries -/

section

variable {n : Nat} {expr : ExprParser} {E : Phrase Expr} [expr.Grows]
  (matched : expr.Matches n (Ended rank E)) (starts : Starts Grammar.begins E)

include matched in
theorem entry_sound {s s' : State} {a : Entry Expr} (hs : s.Ready n)
    (h : (entry expr).Reads s a s') : ∃ ts, Entries E ts a ∧ s.Passes ts s' := by
  unfold entry at h
  rw [eatsSymbol, reads_eats] at h
  obtain ⟨hk, h⟩ | ⟨hk, h⟩ := h
  · rw [if_pos rfl, reads_bind] at h
    obtain ⟨e, s₁, he, h⟩ := h
    obtain ⟨rfl, rfl⟩ := reads_pure.1 h
    obtain ⟨ts, ⟨hE, -⟩, passes⟩ := matched.finds hs.taken he
    exact ⟨_, .spread hE, .taken hk (by decide) passes⟩
  · rw [if_neg Bool.false_ne_true, reads_seesShorthand, reads_bind] at h
    obtain ⟨key, s₁, hkey, h⟩ := h
    obtain ⟨text, htext, rfl, rfl⟩ := reads_key.1 hkey
    have hne : s.kind ≠ .endOfInput := by
      intro he
      rw [he] at htext
      cases htext
    split at h
    · rename_i hshort
      obtain ⟨rfl, rfl⟩ := reads_pure.1 h
      cases hname : s.kind with
      | name x =>
        rw [hname] at htext
        cases htext
        exact ⟨_, .short, .taken hname (by simp) (.nil _)⟩
      | _ =>
        rw [hname] at hshort
        cases hshort
    · rw [expectSymbol, reads_expect, reads_bind] at h
      obtain ⟨hcolon, e, s₁, he, h⟩ := h
      obtain ⟨rfl, rfl⟩ := reads_pure.1 h
      obtain ⟨ts, ⟨hE, -⟩, passes⟩ := matched.finds hs.taken.taken he
      exact ⟨_, .field htext hE, .cons hne (.taken hcolon (by decide) passes)⟩

omit [expr.Grows] in
include matched in
theorem entry_complete {s s' : State} {a : Entry Expr} {ts : List Token}
    (hs : s.Ready n) (h : Entries E ts a) (passes : s.Passes ts s')
    (follows : s'.kind = .symbol .comma ∨ s'.kind = .symbol .rightBrace) :
    (entry expr).Reads s a s' := by
  have hended : rank s'.kind = 0 := by
    obtain hk | hk := follows <;> rw [hk] <;> rfl
  unfold entry
  rw [eatsSymbol, reads_eats]
  cases h with
  | spread hE =>
    obtain ⟨hcurrent, -, passes⟩ := passes.head
    refine .inl ⟨congrArg Token.kind hcurrent, ?_⟩
    exact (matched.accepts hs.taken ⟨hE, hended⟩ passes).bind (reads_pure.2 ⟨rfl, rfl⟩)
  | short =>
    obtain ⟨hcurrent, hne, passes⟩ := passes.head
    cases passes
    have hk : s.kind = _ := congrArg Token.kind hcurrent
    have hnext : s.kindAt 1 = s.taken.kind := kindAt_one (by rw [hk]; exact hne)
    refine .inr ⟨by rw [hk]; simp, ?_⟩
    rw [if_neg Bool.false_ne_true, reads_seesShorthand]
    refine Reads.bind (reads_key.2 ⟨_, by rw [hk]; rfl, rfl, rfl⟩) ?_
    have hshort : (s.kind.isName && (s.kindAt 1 = .symbol .comma || s.kindAt 1 = .symbol .rightBrace))
        = true := by
      rw [hk, hnext]
      obtain hk | hk := follows <;> rw [hk] <;> rfl
    rw [if_pos hshort, hcurrent]
    exact reads_pure.2 ⟨rfl, rfl⟩
  | @field ts k key span colon e htext hE =>
    obtain ⟨hcurrent, hne, passes⟩ := passes.head
    obtain ⟨hcolon, -, passes⟩ := passes.head
    have hk : s.kind = k := congrArg Token.kind hcurrent
    have hcolon : s.taken.kind = .symbol .colon := congrArg Token.kind hcolon
    have hnext : s.kindAt 1 = .symbol .colon := (kindAt_one (by rw [hk]; exact hne)).trans hcolon
    refine .inr ⟨?_, ?_⟩
    · rw [hk]
      rintro rfl
      cases htext
    · rw [if_neg Bool.false_ne_true, reads_seesShorthand]
      refine Reads.bind (reads_key.2 ⟨key, by rw [hk]; exact htext, rfl, rfl⟩) ?_
      rw [if_neg (by simp [hnext]), expectSymbol, reads_expect]
      refine ⟨hcolon, ?_⟩
      rw [hcurrent]
      exact (matched.accepts hs.taken.taken ⟨hE, hended⟩ passes).bind (reads_pure.2 ⟨rfl, rfl⟩)

include matched in
theorem lists_entry : Lists n .rightBrace (entry expr) (Entries E) where
  starts ts a h := by
    cases h with
    | spread _ => exact ⟨_, _, rfl, by simp⟩
    | short => exact ⟨_, _, rfl, by simp⟩
    | field hk _ =>
      refine ⟨_, _, rfl, ?_⟩
      rintro rfl
      cases hk
  finds _ _ _ hs h := entry_sound matched hs h
  accepts _ _ _ _ hs h passes := entry_complete matched hs h.1 passes h.2

end

/-! ## Forms -/

section Forms

variable {n : Nat} {expr : ExprParser} {E : Phrase Expr} [expr.Grows]
  (matched : expr.Matches n (Ended rank E)) {s s' : State} {e : Expr}

include matched in
/-- An expression is read, and then something else. -/
theorem reads_expr {β : Type} {f : Expr → Workbook.Parser β} [∀ e, (f e).Grows] {b : β}
    (hs : s.Ready n) : (expr >>= f).Reads s b s' ↔
      ∃ ts e s₁, E ts e ∧ s.Passes ts s₁ ∧ rank s₁.kind = 0 ∧ (f e).Reads s₁ b s' := by
  rw [reads_bind]
  constructor
  · rintro ⟨e, s₁, he, h⟩
    obtain ⟨ts, ⟨hE, hrank⟩, passes⟩ := matched.finds hs he
    exact ⟨ts, e, s₁, hE, passes, hrank, h⟩
  · rintro ⟨ts, e, s₁, hE, passes, hrank, h⟩
    exact ⟨e, s₁, matched.accepts hs ⟨hE, hrank⟩ passes, h⟩

include matched in
theorem branch_sound (hs : s.Ready n) (hk : s.kind = .word .ifWord)
    (h : (branch expr).Reads s e s') :
    ∃ ts, Primary E true ts e ∧ s.Passes ts s' ∧ rank s'.kind = 0 := by
  unfold branch at h
  rw [reads_take, reads_expr matched hs.taken] at h
  obtain ⟨cs, condition, s₁, hc, passes₁, -, h⟩ := h
  have hs₁ := hs.taken.passes passes₁
  rw [expectWord, reads_expect, reads_expr matched hs₁.taken] at h
  obtain ⟨hthen, ys, yes, s₂, hy, passes₂, -, h⟩ := h
  have hs₂ := hs₁.taken.passes passes₂
  rw [expectWord, reads_expect, reads_expr matched hs₂.taken] at h
  obtain ⟨helse, ns, no, s₃, hn, passes₃, hrank, h⟩ := h
  obtain ⟨rfl, rfl⟩ := reads_pure.1 h
  have passes₂ := passes₂.append (.taken helse (by decide) passes₃)
  have passes₁ := passes₁.append (.taken hthen (by decide) passes₂)
  exact ⟨_, .branch hc hy hn, .taken hk (by decide) passes₁, hrank⟩

include matched in
theorem branch_complete {cs ys ns : List Token} {first andThen orElse : Span}
    {condition yes no : Expr} (hs : s.Ready n) (hc : E cs condition)
    (hy : E ys yes) (hn : E ns no) (passes : s.Passes (⟨.word .ifWord, first⟩ ::
      (cs ++ ⟨.word .thenWord, andThen⟩ :: (ys ++ ⟨.word .elseWord, orElse⟩ :: ns))) s')
    (hrank : rank s'.kind = 0) :
    (branch expr).Reads s (.branch (first.merge no.span) condition yes no) s' := by
  obtain ⟨hfirst, -, passes⟩ := passes.head
  obtain ⟨s₁, passes₁, passes⟩ := passes.of_append
  obtain ⟨hthen, -, passes⟩ := passes.head
  obtain ⟨s₂, passes₂, passes⟩ := passes.of_append
  obtain ⟨helse, -, passes₃⟩ := passes.head
  have hthen : s₁.kind = .word .thenWord := congrArg Token.kind hthen
  have helse : s₂.kind = .word .elseWord := congrArg Token.kind helse
  have hs₁ := hs.taken.passes passes₁
  have hs₂ := hs₁.taken.passes passes₂
  unfold branch
  rw [reads_take, reads_expr matched hs.taken]
  refine ⟨cs, condition, s₁, hc, passes₁, by rw [hthen]; rfl, ?_⟩
  rw [expectWord, reads_expect, reads_expr matched hs₁.taken]
  refine ⟨hthen, ys, yes, s₂, hy, passes₂, by rw [helse]; rfl, ?_⟩
  rw [expectWord, reads_expect, reads_expr matched hs₂.taken]
  refine ⟨helse, ns, no, s', hn, passes₃, hrank, ?_⟩
  rw [hfirst]
  exact reads_pure.2 ⟨rfl, rfl⟩

include matched in
theorem binding_sound (hs : s.Ready n) (hk : s.kind = .word .letWord)
    (h : (binding expr).Reads s e s') :
    ∃ ts, Primary E true ts e ∧ s.Passes ts s' ∧ rank s'.kind = 0 := by
  unfold binding at h
  rw [reads_take, reads_bind] at h
  obtain ⟨key, s₁, hkey, h⟩ := h
  obtain ⟨text, htext, rfl, rfl⟩ := reads_name.1 hkey
  have hname : s.taken.kind = .name text := by
    cases hname : s.taken.kind with
    | name x =>
      rw [hname] at htext
      cases htext
      rfl
    | _ =>
      rw [hname] at htext
      cases htext
  have hs₁ := hs.taken.taken.taken
  rw [expectSymbol, reads_expect, reads_expr matched hs₁] at h
  obtain ⟨heq, vs, value, s₂, hv, passes₂, -, h⟩ := h
  have hs₂ := hs₁.passes passes₂
  rw [expectWord, reads_expect, reads_expr matched hs₂.taken] at h
  obtain ⟨hin, bs, body, s₃, hb, passes₃, hrank, h⟩ := h
  obtain ⟨rfl, rfl⟩ := reads_pure.1 h
  have passes₂ := passes₂.append (.taken hin (by decide) passes₃)
  have passes₁ := State.Passes.taken hname (by simp) (.taken heq (by decide) passes₂)
  exact ⟨_, .binding hv hb, .taken hk (by decide) passes₁, hrank⟩

include matched in
theorem binding_complete {vs bs : List Token} {key : String} {first span eq within : Span}
    {value body : Expr} (hs : s.Ready n) (hv : E vs value) (hb : E bs body)
    (passes : s.Passes (⟨.word .letWord, first⟩ :: ⟨.name key, span⟩ :: ⟨.symbol .eq, eq⟩ ::
      (vs ++ ⟨.word .inWord, within⟩ :: bs)) s') (hrank : rank s'.kind = 0) :
    (binding expr).Reads s (.binding (first.merge body.span) ⟨key, span⟩ value body) s' := by
  obtain ⟨hfirst, -, passes⟩ := passes.head
  obtain ⟨hname, -, passes⟩ := passes.head
  obtain ⟨heq, -, passes⟩ := passes.head
  obtain ⟨s₂, passes₂, passes⟩ := passes.of_append
  obtain ⟨hin, -, passes₃⟩ := passes.head
  have hin : s₂.kind = .word .inWord := congrArg Token.kind hin
  have hs₁ := hs.taken.taken.taken
  have hs₂ := hs₁.passes passes₂
  have hname' : s.taken.kind = .name key := congrArg Token.kind hname
  unfold binding
  rw [reads_take]
  refine Reads.bind (reads_name.2 ⟨key, by rw [hname']; rfl, rfl, rfl⟩) ?_
  rw [expectSymbol, reads_expect, reads_expr matched hs₁]
  refine ⟨congrArg Token.kind heq, vs, value, s₂, hv, passes₂, by rw [hin]; rfl, ?_⟩
  rw [expectWord, reads_expect, reads_expr matched hs₂.taken]
  refine ⟨hin, bs, body, s', hb, passes₃, hrank, ?_⟩
  rw [hfirst, hname]
  exact reads_pure.2 ⟨rfl, rfl⟩

include matched in
theorem lambda_sound (hs : s.Ready n) (hk : s.kind = .word .fnWord)
    (h : (lambda expr).Reads s e s') :
    ∃ ts, Primary E true ts e ∧ s.Passes ts s' ∧ rank s'.kind = 0 := by
  unfold lambda at h
  rw [reads_take, reads_bind] at h
  obtain ⟨ps, s₁, hps, h⟩ := h
  rw [parameters, expectSymbol, reads_expect,
    (lists_name n).reads_closedBy (by decide) hs.taken.taken] at hps
  obtain ⟨hopen, us, closing, hlisted, passes₁⟩ := hps
  have hs₁ := hs.taken.taken.passes passes₁
  rw [expectSymbol, reads_expect, reads_expr matched hs₁.taken] at h
  obtain ⟨harrow, bs, body, s₂, hb, passes₂, hrank, h⟩ := h
  obtain ⟨rfl, rfl⟩ := reads_pure.1 h
  have passes₁ := passes₁.append (.taken harrow (by decide) passes₂)
  rw [List.append_assoc] at passes₁
  have passes := State.Passes.taken hopen (by decide) passes₁
  exact ⟨_, .lambda hlisted hb, .taken hk (by decide) passes, hrank⟩

include matched in
theorem lambda_complete {ps bs : List Token} {first opening closing arrow : Span}
    {parameters : List Name} {body : Expr} (hs : s.Ready n)
    (hp : Listed (Named nameText?) ps parameters) (hb : E bs body)
    (passes : s.Passes (⟨.word .fnWord, first⟩ :: ⟨.symbol .leftParen, opening⟩ ::
        (ps ++ ⟨.symbol .rightParen, closing⟩ :: ⟨.symbol .arrow, arrow⟩ :: bs)) s')
    (hrank : rank s'.kind = 0) :
    (lambda expr).Reads s (.lambda (first.merge body.span) parameters body) s' := by
  obtain ⟨hfirst, -, passes⟩ := passes.head
  obtain ⟨hopen, -, passes⟩ := passes.head
  rw [List.append_cons] at passes
  obtain ⟨s₁, passes₁, passes⟩ := passes.of_append
  obtain ⟨harrow, -, passes₂⟩ := passes.head
  have hs₁ := hs.taken.taken.passes passes₁
  have hps : Workbook.Parser.parameters.Reads s.taken parameters s₁ := by
    rw [Workbook.Parser.parameters, expectSymbol, reads_expect,
      (lists_name n).reads_closedBy (by decide) hs.taken.taken]
    exact ⟨congrArg Token.kind hopen, ps, closing, hp, passes₁⟩
  unfold lambda
  rw [reads_take]
  refine hps.bind ?_
  rw [expectSymbol, reads_expect, reads_expr matched hs₁.taken]
  refine ⟨congrArg Token.kind harrow, bs, body, s', hb, passes₂, hrank, ?_⟩
  rw [hfirst]
  exact reads_pure.2 ⟨rfl, rfl⟩

end Forms

/-! ## Operands -/

theorem rank_lt (k : Kind) : rank k < 8 := by
  unfold rank
  cases k with
  | symbol x => cases x <;> decide
  | word w => cases w <;> decide
  | _ => exact Nat.zero_lt_succ _

/-- Anything can come after what has been closed. -/
theorem stops_closed (k : Kind) : Stops rank false 8 k :=
  rank_lt k

/-- After a form there is no operator and no suffix. -/
theorem stops_form {lowest : Nat} {k : Kind} (h : rank k = 0) : Stops rank true lowest k := by
  show rank k < 1
  omega

theorem rank_of_stops {lowest : Nat} {k : Kind} (h : Stops rank true lowest k) : rank k = 0 := by
  have hlt : rank k < 1 := h
  omega

section Operands

variable {n : Nat} {expr : ExprParser} {E : Phrase Expr} [expr.Grows]
  (matched : expr.Matches n (Ended rank E)) (starts : Starts Grammar.begins E)
  {s s' : State} {e : Expr}

include matched starts in
theorem lists_items : Lists n .rightBracket (item expr) (Items E) :=
  matched.lists_item rfl rfl (by decide) (starts.avoids rfl) (starts.avoids rfl)

omit [expr.Grows] in
include matched starts in
theorem lists_arguments : Lists n .rightParen expr E :=
  matched.lists rfl rfl (starts.avoids rfl)

include matched starts in
theorem primary_sound (hs : s.Ready n) (h : (primary expr).Reads s e s') :
    ∃ ts, Before rank 8 (Primary E) ts e s'.kind ∧ s.Passes ts s' := by
  -- A token that stands for itself.
  have hone {k : Kind} {f : Span → Expr} (hk : s.kind = k) (hne : k ≠ .endOfInput)
      (hP : Primary E false [⟨k, s.current.span⟩] (f s.current.span))
      (h : (do return f (← take) : ExprParser).Reads s e s') :
      ∃ ts, Before rank 8 (Primary E) ts e s'.kind ∧ s.Passes ts s' := by
    rw [reads_take, reads_pure] at h
    obtain ⟨rfl, rfl⟩ := h
    exact ⟨_, ⟨false, hP, stops_closed _⟩, .taken hk hne (.nil _)⟩
  have hform (h : ∃ ts, Primary E true ts e ∧ s.Passes ts s' ∧ rank s'.kind = 0) :
      ∃ ts, Before rank 8 (Primary E) ts e s'.kind ∧ s.Passes ts s' := by
    obtain ⟨ts, hP, passes, hrank⟩ := h
    exact ⟨ts, ⟨true, hP, stops_form hrank⟩, passes⟩
  unfold primary at h
  rw [reads_peek] at h
  cases hk : s.kind with
  | number m =>
    simp only [hk] at h
    exact hone hk (by simp) .number h
  | string text =>
    simp only [hk] at h
    exact hone hk (by simp) .string h
  | stringStart text =>
    simp only [hk] at h
    rw [reads_take, reads_bind] at h
    obtain ⟨ps, s₁, hps, h⟩ := h
    rw [reads_since, reads_pure] at h
    obtain ⟨rfl, rfl⟩ := h
    obtain ⟨ts, qs, hholes, rfl, passes⟩ := pieces_sound matched.finds.free_of_ended hs.taken hps
    obtain ⟨us, t, rfl⟩ : ∃ us t, ts = us ++ [t] := by
      have hne : ts ≠ [] := by
        rintro rfl
        cases hholes
      exact ⟨_, _, (List.dropLast_concat_getLast hne).symm⟩
    rw [passes.previous]
    exact ⟨_, ⟨false, .interpolation hholes, stops_closed _⟩, .taken hk (by simp) passes⟩
  | name text =>
    simp only [hk] at h
    exact hone hk (by simp) .name h
  | word w =>
    cases w with
    | trueWord =>
      simp only [hk] at h
      exact hone hk (by simp) .trueWord h
    | falseWord =>
      simp only [hk] at h
      exact hone hk (by simp) .falseWord h
    | nullWord =>
      simp only [hk] at h
      exact hone hk (by simp) .nullWord h
    | ifWord =>
      simp only [hk] at h
      exact hform (branch_sound matched hs hk h)
    | letWord =>
      simp only [hk] at h
      exact hform (binding_sound matched hs hk h)
    | fnWord =>
      simp only [hk] at h
      exact hform (lambda_sound matched hs hk h)
    | _ =>
      simp only [hk] at h
      exact absurd h not_reads_reject
  | symbol x =>
    cases x with
    | leftBracket =>
      simp only [hk] at h
      rw [reads_take, reads_bind] at h
      obtain ⟨items, s₁, hitems, h⟩ := h
      rw [reads_since, reads_pure] at h
      obtain ⟨rfl, rfl⟩ := h
      obtain ⟨ts, last, hlisted, passes⟩ :=
        ((lists_items matched starts).reads_closedBy (by decide) hs.taken).1 hitems
      rw [passes.previous]
      exact ⟨_, ⟨false, .list hlisted, stops_closed _⟩, .taken hk (by simp) passes⟩
    | leftBrace =>
      simp only [hk] at h
      rw [reads_take, reads_bind] at h
      obtain ⟨entries, s₁, hentries, h⟩ := h
      rw [reads_since, reads_pure] at h
      obtain ⟨rfl, rfl⟩ := h
      obtain ⟨ts, last, hlisted, passes⟩ :=
        ((lists_entry matched).reads_closedBy (by decide) hs.taken).1 hentries
      rw [passes.previous]
      exact ⟨_, ⟨false, .record hlisted, stops_closed _⟩, .taken hk (by simp) passes⟩
    | leftParen =>
      simp only [hk] at h
      rw [reads_take, reads_expr matched hs.taken] at h
      obtain ⟨ts, inner, s₁, hE, passes, -, h⟩ := h
      rw [expectSymbol, reads_expect, reads_since, reads_pure] at h
      obtain ⟨hclose, rfl, rfl⟩ := h
      have hpasses := passes.append (.taken hclose (by decide) (.nil _))
      rw [hpasses.previous]
      exact ⟨_, ⟨false, .parenthesized hE, stops_closed _⟩, .taken hk (by simp) hpasses⟩
    | _ =>
      simp only [hk] at h
      exact absurd h not_reads_reject
  | _ =>
    simp only [hk] at h
    exact absurd h not_reads_reject

include matched starts in
theorem primary_complete {reaches : Bool} {ts : List Token} (hs : s.Ready n)
    (h : Primary E reaches ts e) (passes : s.Passes ts s') (stops : Stops rank reaches 8 s'.kind) :
    (primary expr).Reads s e s' := by
  unfold primary
  rw [reads_peek]
  cases h with
  | interpolation hholes =>
    obtain ⟨hfirst, -, passes⟩ := passes.head
    have hk : s.kind = _ := congrArg Token.kind hfirst
    simp only [hk]
    rw [reads_take]
    refine Reads.bind (pieces_complete matched.accepts rfl hs.taken hholes passes) ?_
    rw [reads_since, passes.previous, hfirst, reads_pure]
    exact ⟨rfl, rfl⟩
  | number | string | name | trueWord | falseWord | nullWord =>
    obtain ⟨hfirst, -, passes⟩ := passes.head
    cases passes
    have hk : s.kind = _ := congrArg Token.kind hfirst
    simp only [hk]
    rw [reads_take, hfirst, reads_pure]
    exact ⟨rfl, rfl⟩
  | list hlisted =>
    obtain ⟨hfirst, -, passes⟩ := passes.head
    have hk : s.kind = _ := congrArg Token.kind hfirst
    simp only [hk]
    rw [reads_take]
    refine Reads.bind (((lists_items matched starts).reads_closedBy (by decide)
      hs.taken).2 ⟨_, _, hlisted, passes⟩) ?_
    rw [reads_since, passes.previous, hfirst, reads_pure]
    exact ⟨rfl, rfl⟩
  | record hlisted =>
    obtain ⟨hfirst, -, passes⟩ := passes.head
    have hk : s.kind = _ := congrArg Token.kind hfirst
    simp only [hk]
    rw [reads_take]
    refine Reads.bind (((lists_entry matched).reads_closedBy (by decide)
      hs.taken).2 ⟨_, _, hlisted, passes⟩) ?_
    rw [reads_since, passes.previous, hfirst, reads_pure]
    exact ⟨rfl, rfl⟩
  | parenthesized hE =>
    obtain ⟨hfirst, -, passes⟩ := passes.head
    have hk : s.kind = _ := congrArg Token.kind hfirst
    have hprevious := passes.previous
    obtain ⟨s₁, passes₁, hlast⟩ := passes.of_append
    obtain ⟨hclose, -, hlast⟩ := hlast.head
    cases hlast
    have hclose : s₁.kind = .symbol .rightParen := congrArg Token.kind hclose
    simp only [hk]
    rw [reads_take, reads_expr matched hs.taken]
    refine ⟨_, _, s₁, hE, passes₁, by rw [hclose]; rfl, ?_⟩
    rw [expectSymbol, reads_expect, reads_since, hprevious, hfirst, reads_pure]
    exact ⟨hclose, rfl, rfl⟩
  | branch hc hy hn =>
    simp only [passes.kind]
    exact branch_complete matched hs hc hy hn passes (rank_of_stops stops)
  | binding hv hb =>
    simp only [passes.kind]
    exact binding_complete matched hs hv hb passes (rank_of_stops stops)
  | lambda hp hb =>
    simp only [passes.kind]
    exact lambda_complete matched hs hp hb passes (rank_of_stops stops)

include matched starts in
/-- What stands for itself. -/
theorem matches_primary : (primary expr).Matches n (Before rank 8 (Primary E)) := by
  constructor
  · intro s e s' hs h
    exact primary_sound matched starts hs h
  · intro s e s' ts hs ⟨reaches, h, stops⟩ passes
    exact primary_complete matched starts hs h passes stops

end Operands

end Parser
end Formula
end Workbook
