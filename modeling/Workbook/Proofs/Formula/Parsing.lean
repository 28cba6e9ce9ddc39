/-
The parser of formulas reads what the grammar says, and nothing else (`whole_iff_written`).

Level by level, a parser reads what a rule of the grammar says where what follows does not go on with
it: suffixes, prefixes, operators between operands, comparisons and the levels of nesting.  After a
form, nothing that would go on with its last expression can follow; so a form reaches as far to the
right as it can, and the tokens do not write anything else.
-/
import Workbook.Proofs.Formula.Primary

namespace Workbook
namespace Formula
namespace Parser

open Token (Kind Symbol)
open Workbook.Parser
open Grammar (between? rank joins Primary Suffixed Prefixed Sum Comparison Disjunction Closed Operand
  Expression)

/-! ## Operators -/

theorem joins_isSome {n : Nat} (h1 : 1 ≤ n) (h6 : n ≤ 6) (k : Kind) :
    (joins n k).isSome ↔ rank k = n := by
  -- what begins a suffix stands between no operands
  have hrank : (between? k = none ∧ rank k = 7) ∨ rank k = ((between? k).map Prod.fst).getD 0 := by
    unfold rank
    split
    · exact .inl ⟨rfl, rfl⟩
    · exact .inl ⟨rfl, rfl⟩
    · exact .inl ⟨rfl, rfl⟩
    · exact .inr rfl
  unfold joins
  cases hbetween : between? k with
  | none =>
    rw [hbetween] at hrank
    simp at hrank ⊢
    omega
  | some p =>
    obtain ⟨m, join⟩ := p
    obtain ⟨hnone, -⟩ | hrank := hrank
    · cases hnone.symm.trans hbetween
    · rw [hrank, hbetween]
      simp

/-- The operators of a table with what they make of operands. -/
theorem takes_joining {n : Nat} {table : Symbol → Option BinaryOp}
    (h : ∀ k, joins n k = (ofSymbol table k).map joined) : Takes (joining table) (joins n) :=
  takes_operator h

theorem takes_factor : Takes (joining factorOp) (joins 6) :=
  takes_joining fun k => by cases k with
    | symbol x => cases x <;> rfl
    | word w => cases w <;> rfl
    | _ => rfl

theorem takes_term : Takes (joining termOp) (joins 5) :=
  takes_joining fun k => by cases k with
    | symbol x => cases x <;> rfl
    | word w => cases w <;> rfl
    | _ => rfl

theorem takes_comparison : Takes (joining comparisonOp) (joins 4) :=
  takes_joining fun k => by cases k with
    | symbol x => cases x <;> rfl
    | word w => cases w <;> rfl
    | _ => rfl

/-- A parser that takes one kind of token takes the only operator of a rank. -/
theorem takes_eats {n : Nat} {k : Kind} {join : Expr → Expr → Expr}
    (h : ∀ k', joins n k' = if k' = k then some join else none) :
    Takes (eats k >>= fun b => if b then pure (some join) else pure none) (joins n) where
  operator {s join'} hjoin := by
    rw [h] at hjoin
    split at hjoin
    · rename_i hk
      cases hjoin
      rw [on_bind, on_eats, if_pos hk]
      rfl
    · cases hjoin
  other {s} hjoin := by
    rw [h] at hjoin
    split at hjoin
    · cases hjoin
    · rename_i hk
      rw [on_bind, on_eats, if_neg hk]
      rfl

theorem takes_coalescing : Takes coalescing (joins 3) :=
  takes_eats fun k => by cases k with
    | symbol x => cases x <;> rfl
    | word w => cases w <;> rfl
    | _ => rfl

theorem takes_and : Takes (wordOp .andWord .and) (joins 2) :=
  takes_eats fun k => by cases k with
    | symbol x => cases x <;> rfl
    | word w => cases w <;> rfl
    | _ => rfl

theorem takes_or : Takes (wordOp .orWord .or) (joins 1) :=
  takes_eats fun k => by cases k with
    | symbol x => cases x <;> rfl
    | word w => cases w <;> rfl
    | _ => rfl

/-! ## Suffixes -/

/-- What is no suffix holds an operand less tightly. -/
theorem rank_eq_seven {k : Kind} (h : rank k = 7) :
    k = .symbol .dot ∨ k = .symbol .leftBracket ∨ k = .symbol .leftParen := by
  have hbetween : ∀ p, Grammar.between? k = some p → p.1 ≠ 7 := by
    intro p hp
    unfold Grammar.between? at hp
    split at hp <;> cases hp <;> decide
  unfold rank at h
  split at h
  · exact .inl rfl
  · exact .inr (.inl rfl)
  · exact .inr (.inr rfl)
  · cases hp : Grammar.between? k with
    | none =>
      rw [hp] at h
      cases h
    | some p =>
      rw [hp] at h
      exact absurd h (hbetween p hp)

section Suffixes

variable {n : Nat} {expr : ExprParser} {E : Phrase Expr} [expr.Grows]
  (matched : expr.Matches n (Ended rank E)) (starts : Starts Grammar.begins E)
  {s s₁ s' : State} {e a : Expr} {reaches : Bool} {ts : List Token} {fuel : Nat}

omit [expr.Grows] in
/-- Where no suffix is ahead, the operand is all. -/
theorem reads_suffixes (h : rank s.kind ≠ 7) :
    (suffixes expr fuel e).Reads s a s' ↔ a = e ∧ s' = s := by
  cases fuel with
  | zero => exact reads_pure
  | succ fuel =>
    unfold suffixes
    rw [reads_peek]
    split
    · rename_i hk
      exact absurd (by rw [hk]; rfl) h
    · rename_i hk
      exact absurd (by rw [hk]; rfl) h
    · rename_i hk
      exact absurd (by rw [hk]; rfl) h
    · exact reads_pure

include matched starts in
/-- From what has been read, the suffixes after it are read. -/
theorem suffixes_sound {s₀ : State} (hs : s₀.Ready n) (hfuel : s.rest.length ≤ fuel)
    (before : Suffixed E reaches ts e) (passes : s₀.Passes ts s) (stops : Stops rank reaches 8 s.kind)
    (h : (suffixes expr fuel e).Reads s a s') :
    ∃ us, Before rank 7 (Suffixed E) us a s'.kind ∧ s₀.Passes us s' := by
  induction fuel generalizing s e ts reaches with
  | zero =>
    have hrest : s.rest = [] := List.eq_nil_of_length_eq_zero (by omega)
    have hkind : s.kind = .endOfInput := by
      unfold State.kind State.current
      rw [hrest]
      rfl
    obtain ⟨rfl, rfl⟩ := reads_pure.1 h
    exact ⟨ts, ⟨reaches, before, stops.lower (by rw [hkind]; decide)⟩, passes⟩
  | succ fuel ih =>
    have hdepth := hs.passes passes
    by_cases hrank : rank s.kind = 7
    · unfold suffixes at h
      rw [reads_peek] at h
      obtain rfl := stops.not_reaches (by omega)
      obtain hk | hk | hk := rank_eq_seven hrank
      · simp only [hk] at h
        rw [reads_take, reads_bind] at h
        obtain ⟨key, s₁, hkey, h⟩ := h
        obtain ⟨text, htext, rfl, rfl⟩ := reads_memberName.1 hkey
        have hne : s.taken.kind ≠ .endOfInput := by
          intro he
          rw [he] at htext
          cases htext
        have hnext := State.Passes.taken hk (by decide) (.taken rfl hne (.nil _))
        exact ih (hnext.length_le hfuel) (.member before htext) (passes.append hnext)
          (stops_closed _) h
      · simp only [hk] at h
        rw [reads_take, reads_expr matched hdepth.taken] at h
        obtain ⟨us, key, s₁, hE, passes₁, -, h⟩ := h
        rw [expectSymbol, reads_expect, reads_since] at h
        obtain ⟨hclose, h⟩ := h
        have hnext := State.Passes.taken hk (by decide)
          (passes₁.append (.taken hclose (by decide) (.nil _)))
        rw [State.Passes.previous hnext.head.2.2] at h
        exact ih (hnext.length_le hfuel) (.index before hE) (passes.append hnext)
          (stops_closed _) h
      · simp only [hk] at h
        rw [reads_take, reads_bind] at h
        obtain ⟨arguments, s₁, hargs, h⟩ := h
        obtain ⟨us, last, hlisted, passes₁⟩ :=
          ((lists_arguments matched starts).reads_closedBy (by decide) hdepth.taken).1 hargs
        have hnext := State.Passes.taken hk (by decide) passes₁
        rw [reads_since, passes₁.previous] at h
        exact ih (hnext.length_le hfuel) (.call before hlisted) (passes.append hnext)
          (stops_closed _) h
    · obtain ⟨rfl, rfl⟩ := (reads_suffixes hrank).1 h
      exact ⟨ts, ⟨reaches, before, stops.lower hrank⟩, passes⟩

include matched starts in
/-- After an operand and suffixes have been read, more suffixes can follow. -/
theorem suffixes_complete (hs : s.Ready n) (h : Suffixed E reaches ts e)
    (passes : s.Passes ts s₁) (stops : Stops rank reaches 8 s₁.kind) :
    ∃ fuel, s₁.rest.length ≤ fuel ∧ ∀ a s', (suffixes expr fuel e).Reads s₁ a s' →
      (suffixed expr).Reads s a s' := by
  induction h generalizing s₁ with
  | primary hP =>
    have hread := (matches_primary matched starts).accepts hs ⟨_, hP, stops⟩ passes
    refine ⟨s₁.rest.length, Nat.le_refl _, fun a s' hrest => ?_⟩
    exact hread.bind (reads_get.2 hrest)
  | member _ htext ih =>
    obtain ⟨s₂, hfirst, hlast⟩ := passes.of_append
    obtain ⟨fuel, hfuel, hgo⟩ := ih hfirst (stops_closed _)
    obtain ⟨fuel, rfl, hle⟩ := hlast.fuel hfuel
    refine ⟨fuel, hle, fun a s' hrest => hgo a s' ?_⟩
    obtain ⟨hdot, -, hlast⟩ := hlast.head
    obtain ⟨hkey, -, hlast⟩ := hlast.head
    cases hlast
    have hk : s₂.kind = .symbol .dot := congrArg Token.kind hdot
    have hkey' : s₂.taken.kind = _ := congrArg Token.kind hkey
    unfold suffixes
    rw [reads_peek]
    simp only [hk]
    rw [reads_take]
    refine Reads.bind (reads_memberName.2 ⟨_, by rw [hkey']; exact htext, rfl, rfl⟩) ?_
    rw [hkey]
    exact hrest
  | index _ hE ih =>
    obtain ⟨s₂, hfirst, hlast⟩ := passes.of_append
    obtain ⟨fuel, hfuel, hgo⟩ := ih hfirst (stops_closed _)
    obtain ⟨fuel, rfl, hle⟩ := hlast.fuel hfuel
    refine ⟨fuel, hle, fun a s' hrest => hgo a s' ?_⟩
    have hdepth := hs.passes hfirst
    obtain ⟨hopen, -, hlast⟩ := hlast.head
    have hprevious := hlast.previous
    obtain ⟨s₃, hkey, hlast⟩ := hlast.of_append
    obtain ⟨hclose, -, hlast⟩ := hlast.head
    cases hlast
    have hk : s₂.kind = .symbol .leftBracket := congrArg Token.kind hopen
    have hclose : s₃.kind = .symbol .rightBracket := congrArg Token.kind hclose
    unfold suffixes
    rw [reads_peek]
    simp only [hk]
    rw [reads_take, reads_expr matched hdepth.taken]
    refine ⟨_, _, s₃, hE, hkey, by rw [hclose]; rfl, ?_⟩
    rw [expectSymbol, reads_expect, reads_since, hprevious]
    exact ⟨hclose, hrest⟩
  | call _ hlisted ih =>
    obtain ⟨s₂, hfirst, hlast⟩ := passes.of_append
    obtain ⟨fuel, hfuel, hgo⟩ := ih hfirst (stops_closed _)
    obtain ⟨fuel, rfl, hle⟩ := hlast.fuel hfuel
    refine ⟨fuel, hle, fun a s' hrest => hgo a s' ?_⟩
    have hdepth := hs.passes hfirst
    obtain ⟨hopen, -, hlast⟩ := hlast.head
    have hk : s₂.kind = .symbol .leftParen := congrArg Token.kind hopen
    unfold suffixes
    rw [reads_peek]
    simp only [hk]
    rw [reads_take]
    refine Reads.bind (((lists_arguments matched starts).reads_closedBy (by decide)
      hdepth.taken).2 ⟨_, _, hlisted, hlast⟩) ?_
    rw [reads_since, hlast.previous]
    exact hrest

include matched starts in
/-- An operand with what comes after it. -/
theorem matches_suffixed : (suffixed expr).Matches n (Before rank 7 (Suffixed E)) := by
  constructor
  · intro s a s' hs h
    unfold suffixed at h
    rw [reads_bind] at h
    obtain ⟨e, s₁, he, h⟩ := h
    rw [reads_get] at h
    obtain ⟨ts, ⟨reaches, hP, stops⟩, passes⟩ := (matches_primary matched starts).finds hs he
    exact suffixes_sound matched starts hs (Nat.le_refl _) (.primary hP) passes stops h
  · intro s a s' ts hs ⟨reaches, h, stops⟩ passes
    obtain ⟨stops, hrank⟩ := stops.raise (by decide)
    obtain ⟨fuel, -, hgo⟩ := suffixes_complete matched starts hs h passes stops
    exact hgo a s' ((reads_suffixes hrank).2 ⟨rfl, rfl⟩)

end Suffixes

/-! ## Prefixes -/

section Prefixes

variable {n : Nat} {expr deeper : ExprParser} {E : Phrase Expr} {U : Bool → Phrase Expr}
  [expr.Grows] [deeper.Grows] (matched : expr.Matches n (Ended rank E))
  (starts : Starts Grammar.begins E)
  (inner : (nested deeper).Matches n (Before rank 7 U))

include inner in
/-- What comes after a prefix. -/
theorem reads_signed {op : UnaryOp} {s s' : State} {e : Expr} (hs : s.Ready n) :
    (unary.signed deeper op).Reads s e s' ↔ ∃ reaches ts operand, U reaches ts operand ∧
      s.taken.Passes ts s' ∧ Stops rank reaches 7 s'.kind ∧
      e = .unary (s.current.span.merge operand.span) op operand := by
  unfold unary.signed
  rw [reads_take, reads_bind]
  constructor
  · rintro ⟨operand, s₁, he, h⟩
    obtain ⟨ts, ⟨reaches, hU, stops⟩, passes⟩ := inner.finds hs.taken he
    obtain ⟨rfl, rfl⟩ := reads_pure.1 h
    exact ⟨reaches, ts, operand, hU, passes, stops, rfl⟩
  · rintro ⟨reaches, ts, operand, hU, passes, stops, rfl⟩
    have hread := inner.accepts hs.taken ⟨reaches, hU, stops⟩ passes
    exact ⟨operand, s', hread, reads_pure.2 ⟨rfl, rfl⟩⟩

include matched starts inner in
/-- An operand with the prefixes in front of it. -/
theorem reads_unary {s s' : State} {e : Expr} (hs : s.Ready n) : (unary expr deeper).Reads s e s' ↔
    ∃ ts, Before rank 7 (Prefixed E U) ts e s'.kind ∧ s.Passes ts s' := by
  -- What begins with a prefix is no operand with suffixes.
  have hsuffixed {reaches : Bool} {ts : List Token} {k : Kind} (hk : s.kind = k)
      (hopens : Grammar.opens k = false) (h : Suffixed E reaches ts e) (passes : s.Passes ts s') :
      False := by
    obtain ⟨t, us, rfl, ht⟩ := Grammar.starts_suffixed _ h
    rw [← passes.kind, hk, hopens] at ht
    cases ht
  unfold unary
  rw [reads_peek]
  by_cases hnot : s.kind = .word .notWord
  · simp only [hnot]
    rw [reads_signed inner hs]
    constructor
    · rintro ⟨reaches, ts, operand, hU, passes, stops, rfl⟩
      exact ⟨_, ⟨reaches, .not hU, stops⟩, .taken hnot (by decide) passes⟩
    · rintro ⟨ts, ⟨reaches, h, stops⟩, passes⟩
      cases h with
      | suffixed h => exact (hsuffixed hnot rfl h passes).elim
      | not hU =>
        obtain ⟨hfirst, -, passes⟩ := passes.head
        exact ⟨reaches, _, _, hU, passes, stops, by rw [hfirst]⟩
      | neg _ => cases hnot.symm.trans passes.kind
  · by_cases hneg : s.kind = .symbol .minus
    · simp only [hneg]
      rw [reads_signed inner hs]
      constructor
      · rintro ⟨reaches, ts, operand, hU, passes, stops, rfl⟩
        exact ⟨_, ⟨reaches, .neg hU, stops⟩, .taken hneg (by decide) passes⟩
      · rintro ⟨ts, ⟨reaches, h, stops⟩, passes⟩
        cases h with
        | suffixed h => exact (hsuffixed hneg rfl h passes).elim
        | not _ => cases hneg.symm.trans passes.kind
        | neg hU =>
          obtain ⟨hfirst, -, passes⟩ := passes.head
          exact ⟨reaches, _, _, hU, passes, stops, by rw [hfirst]⟩
    · split
      · exact absurd ‹_› hnot
      · exact absurd ‹_› hneg
      · rw [(matches_suffixed matched starts).iff hs]
        constructor
        · rintro ⟨ts, ⟨reaches, h, stops⟩, passes⟩
          exact ⟨ts, ⟨reaches, .suffixed h, stops⟩, passes⟩
        · rintro ⟨ts, ⟨reaches, h, stops⟩, passes⟩
          cases h with
          | suffixed h => exact ⟨ts, ⟨reaches, h, stops⟩, passes⟩
          | not _ => exact absurd passes.kind hnot
          | neg _ => exact absurd passes.kind hneg

include matched starts inner in
theorem matches_unary : (unary expr deeper).Matches n (Before rank 7 (Prefixed E U)) :=
  .of_iff fun hs => reads_unary matched starts inner hs

end Prefixes

/-! ## Operators between operands -/

section Operators

variable {n : Nat} {operand : ExprParser} {U : Bool → Phrase Expr} [operand.Grows]
  (matched : operand.Matches n (Before rank 7 U))

include matched in
theorem matches_sum : (sum operand).Matches n (Before rank 5 (Sum U)) :=
  matches_operands (joins_isSome (by decide) (by decide)) takes_term (by decide)
    rfl (matches_operands (joins_isSome (by decide) (by decide)) takes_factor (by decide) rfl matched)

theorem comparison_isSome (x : Symbol) : (comparisonOp x).isSome ↔ rank (.symbol x) = 4 := by
  cases x <;> decide

theorem chained_on (s : State) : chained.on s = (match s.kind with
    | .symbol x =>
      if (comparisonOp x).isSome then (do report .chainedComparison; joining comparisonOp)
      else joining comparisonOp
    | _ => joining comparisonOp).on s := rfl

/-- A comparison after a comparison is a problem. -/
theorem reads_chained {β : Type} {f : Option (Expr → Expr → Expr) → Workbook.Parser β}
    (hf : ∀ join, (f join).Grows) {s s' : State} {b : β} :
    (chained >>= f).Reads s b s' ↔ rank s.kind ≠ 4 ∧ (f none).Reads s b s' := by
  have hrun := chained_on s
  by_cases hrank : rank s.kind = 4
  · obtain ⟨x, hx⟩ : ∃ x, s.kind = .symbol x := by
      cases hk : s.kind with
      | symbol x => exact ⟨x, rfl⟩
      | word w =>
        rw [hk] at hrank
        cases w <;> cases hrank
      | _ =>
        rw [hk] at hrank
        cases hrank
    rw [hx] at hrank hrun
    simp only [(comparison_isSome x).2 hrank, if_true] at hrun
    refine ⟨fun h => ?_, fun h => absurd (hx ▸ hrank) h.1⟩
    have hon : (chained >>= f).on s =
        (joining comparisonOp >>= f).on (s.reporting .chainedComparison) := by
      rw [on_bind, hrun]
      exact (on_bind _ _ _).symm
    have hle := Grows.le (p := joining comparisonOp >>= f) inferInstance (s.reporting .chainedComparison)
    rw [← hon, h.on] at hle
    have hlt : s.problems.total < s'.problems.total := hle
    have hclean := h.clean
    omega
  · have hjoin : joins 4 s.kind = none := by
      obtain ⟨_, _, h⟩ | ⟨h, _⟩ := joins_cases (joins_isSome (n := 4) (by decide) (by decide)) s.kind
      · exact absurd h hrank
      · exact h
    have hon : (chained >>= f).on s = (f none).on s := by
      rw [on_bind, hrun]
      cases hk : s.kind with
      | symbol x =>
        have hx : (comparisonOp x).isSome = false := by
          rw [Bool.eq_false_iff]
          exact fun h => hrank (hk ▸ (comparison_isSome x).1 h)
        simp only [hx]
        rw [if_neg Bool.false_ne_true, takes_comparison.other hjoin]
        rfl
      | _ =>
        simp only
        rw [takes_comparison.other hjoin]
        rfl
    rw [reads_of_on hon rfl]
    exact ⟨fun h => ⟨hrank, h⟩, fun h => h.2⟩

/-- Operands after a comparison. -/
theorem reads_chain_chained {s s' : State} {e left : Expr} :
    (chain chained operand s.rest.length left).Reads s e s' ↔
      rank s.kind ≠ 4 ∧ e = left ∧ s' = s := by
  cases hfuel : s.rest.length with
  | zero =>
    have hkind : s.kind = .endOfInput := by
      unfold State.kind State.current
      rw [List.eq_nil_of_length_eq_zero hfuel]
      rfl
    unfold chain
    rw [reads_pure, hkind]
    exact ⟨fun h => ⟨by decide, h⟩, fun h => h.2⟩
  | succ fuel =>
    unfold chain
    refine (reads_chained fun join => ?_).trans (and_congr_right fun _ => reads_pure)
    split <;> infer_instance

include matched in
theorem reads_comparison {s s' : State} {e : Expr} (hs : s.Ready n) :
    (comparison operand).Reads s e s' ↔
      ∃ ts, Before rank 4 (Comparison U) ts e s'.kind ∧ s.Passes ts s' := by
  have hsum := matches_sum matched
  have hjoins := joins_cases (joins_isSome (n := 4) (by decide) (by decide))
  rw [comparison_eq, reads_bind]
  constructor
  · rintro ⟨left, s₁, hleft, h⟩
    obtain ⟨ts, ⟨reaches, hP, stops⟩, passes⟩ := hsum.finds hs hleft
    unfold comparisonRest at h
    obtain ⟨join, hjoin, hrank⟩ | ⟨hjoin, hrank⟩ := hjoins s₁.kind
    · rw [takes_comparison.reads_some hjoin, reads_bind] at h
      obtain ⟨right, s₂, hright, h⟩ := h
      rw [reads_get, reads_chain_chained] at h
      obtain ⟨hlast, rfl, rfl⟩ := h
      obtain rfl := stops.not_reaches (by omega)
      have hdepth := (hs.passes passes).taken
      obtain ⟨us, ⟨reaches, hQ, stops⟩, passes'⟩ := hsum.finds hdepth hright
      have hne : s₁.kind ≠ .endOfInput := by
        intro he
        rw [he] at hrank
        cases hrank
      exact ⟨_, ⟨reaches, .two hP hjoin hQ, stops.lower hlast⟩, passes.append (.cons hne passes')⟩
    · rw [takes_comparison.reads_none hjoin, reads_pure] at h
      obtain ⟨rfl, rfl⟩ := h
      exact ⟨ts, ⟨reaches, .one hP, stops.lower hrank⟩, passes⟩
  · rintro ⟨ts, ⟨reaches, h, stops⟩, passes⟩
    obtain ⟨stops, hrank⟩ := stops.raise (by decide)
    unfold comparisonRest
    cases h with
    | one hP =>
      obtain ⟨_, _, he⟩ | ⟨hjoin, -⟩ := hjoins s'.kind
      · exact absurd he hrank
      · refine ⟨e, s', hsum.accepts hs ⟨reaches, hP, stops⟩ passes, ?_⟩
        rw [takes_comparison.reads_none hjoin, reads_pure]
        exact ⟨rfl, rfl⟩
    | two hP hjoin hQ =>
      obtain ⟨s₁, hfirst, hlast⟩ := passes.of_append
      obtain ⟨rfl, -, hlast⟩ := hlast.head
      have hfour : rank s₁.kind = 4 :=
        (joins_isSome (by decide) (by decide) _).1 (Option.isSome_of_eq_some hjoin)
      have hstop : Stops rank false 5 s₁.kind := show rank s₁.kind < 5 by omega
      refine ⟨_, s₁, hsum.accepts hs ⟨false, hP, hstop⟩ hfirst, ?_⟩
      rw [takes_comparison.reads_some hjoin]
      have hdepth := (hs.passes hfirst).taken
      refine Reads.bind (hsum.accepts hdepth ⟨reaches, hQ, stops⟩ hlast) ?_
      rw [reads_get, reads_chain_chained]
      exact ⟨hrank, rfl, rfl⟩

include matched in
theorem matches_comparison : (comparison operand).Matches n (Before rank 4 (Comparison U)) :=
  .of_iff fun hs => reads_comparison matched hs

include matched in
theorem matches_disjunction : (disjunction operand).Matches n (Before rank 1 (Disjunction U)) :=
  matches_operands (joins_isSome (by decide) (by decide)) takes_or (by decide) rfl
    (matches_operands (joins_isSome (by decide) (by decide)) takes_and (by decide) rfl
      (matches_operands (joins_isSome (by decide) (by decide)) takes_coalescing (by decide) rfl
        (matches_comparison matched)))

end Operators

/-! ## Levels -/

theorem matches_level (n : Nat) : (level n).expr.Matches n (Ended rank (Expression n)) ∧
    (level n).operand.Matches n (Before rank 7 (Operand n)) := by
  induction n with
  | zero =>
    have htooDeep : (reject (.tooDeep maxNesting) : ExprParser).Matches 0
        (Ended rank (Expression 0)) :=
      ⟨finds_of_not fun _ _ _ => not_reads_reject, accepts_of_not fun _ _ _ h => h.1⟩
    have hinner : (nested (reject (.tooDeep maxNesting) : ExprParser)).Matches 0
        (Before rank 7 fun _ _ _ => False) := by
      refine ⟨finds_of_not fun s e s' h => ?_, accepts_of_not fun _ _ _ ⟨_, h, _⟩ => h⟩
      obtain ⟨-, s₁, h, -⟩ := reads_nested.1 h
      exact not_reads_reject h
    exact ⟨htooDeep, matches_unary htooDeep (Grammar.starts_expression 0) hinner⟩
  | succ n ih =>
    obtain ⟨hexpr, hoperand⟩ := ih
    have := (grows_level n).2
    have hclosed : (level (n + 1)).expr.Matches (n + 1) (Ended rank (Expression (n + 1))) := by
      refine (matches_disjunction hoperand).nested.congr fun ts e k => ?_
      constructor
      · rintro ⟨reaches, h, stops⟩
        have hlt : rank k < if reaches then 1 else 1 := stops
        exact ⟨⟨reaches, h⟩, by split at hlt <;> omega⟩
      · rintro ⟨⟨reaches, h⟩, hrank⟩
        refine ⟨reaches, h, ?_⟩
        show rank k < if reaches then 1 else 1
        split <;> omega
    exact ⟨hclosed, matches_unary hclosed (Grammar.starts_expression (n + 1)) hoperand.nested⟩

/-! ## Whole formulas -/

/-- What is ahead after the whole expression must be the end. -/
def finish (e : Expr) : ExprParser := do
  if !(← sees .endOfInput) then report (.trailingInput (← peek))
  return e

theorem reads_finish {s s' : State} {e e' : Expr} :
    (finish e).Reads s e' s' ↔ s.kind = .endOfInput ∧ e' = e ∧ s' = s := by
  unfold finish
  rw [reads_sees]
  by_cases hk : s.kind = .endOfInput
  · rw [if_neg (by simp [hk]), reads_pure]
    simp [hk]
  · rw [if_pos (by simp [hk]), reads_peek]
    refine ⟨fun h => absurd h not_reads_report, fun h => absurd h.1 hk⟩

instance (e : Expr) : (finish e).Grows := by
  unfold finish
  infer_instance

theorem whole_eq : whole = (do
    if ← sees .endOfInput then return .null (← here)
    expression >>= finish) := rfl

theorem grows_whole : whole.Grows := by
  have : expression.Grows := (grows_level maxNesting).1
  rw [whole_eq]
  infer_instance

theorem reads_whole {s s' : State} {e : Expr} : whole.Reads s e s' ↔
    (s.kind = .endOfInput ∧ e = .null s.current.span ∧ s' = s) ∨
      (s.kind ≠ .endOfInput ∧ expression.Reads s e s' ∧ s'.kind = .endOfInput) := by
  have hexpression : expression.Grows := (grows_level maxNesting).1
  rw [whole_eq, reads_sees]
  by_cases hk : s.kind = .endOfInput
  · rw [if_pos (decide_eq_true hk), reads_here, reads_pure]
    simp [hk]
  · rw [if_neg (by simpa using hk), reads_bind]
    constructor
    · rintro ⟨e', s₁, he, h⟩
      obtain ⟨hend, rfl, rfl⟩ := reads_finish.1 h
      exact .inr ⟨hk, he, hend⟩
    · rintro (⟨he, -⟩ | ⟨-, he, hend⟩)
      · exact absurd he hk
      · exact ⟨e, s', he, reads_finish.2 ⟨hend, rfl, rfl⟩⟩

section Whole

variable {ts : List Token} {final : Token} (body : ∀ t ∈ ts, t.kind ≠ .endOfInput)
  (ends : final.kind = .endOfInput)

include body ends in
/-- A whole formula is read exactly if its tokens write it. -/
theorem reads_whole_iff {s : State} (hs : s.Ready maxNesting) (h : s.rest = ts ++ [final]) {e : Expr} :
    (∃ s', whole.Reads s e s') ↔ Grammar.Written final.span ts e := by
  have hmatches := (matches_level maxNesting).1
  constructor
  · rintro ⟨s', hwhole⟩
    obtain ⟨hk, rfl, rfl⟩ | ⟨-, he, hend⟩ := reads_whole.1 hwhole
    · have hnil := passes_eq body ends h (.nil s') hk
      subst hnil
      rw [current_of_rest h]
      exact .empty
    · obtain ⟨us, ⟨hE, -⟩, passes⟩ := hmatches.finds hs he
      obtain rfl := passes_eq body ends h passes hend
      exact .expression hE
  · intro hwritten
    cases hwritten with
    | empty =>
      have hcurrent : s.current = final := current_of_rest h
      exact ⟨s, reads_whole.2 (.inl ⟨kind_of_rest ends h, by rw [hcurrent], rfl⟩)⟩
    | expression hE =>
      obtain ⟨s', passes, hrest⟩ := State.Passes.exists_of_rest h body
      have hend := kind_of_rest ends hrest
      have hread : expression.Reads s e s' :=
        hmatches.accepts hs ⟨hE, by rw [hend]; rfl⟩ passes
      obtain ⟨t, us, rfl, ht⟩ := Grammar.starts_expression _ hE
      have hk : s.kind ≠ .endOfInput := by
        rw [passes.kind]
        exact body t List.mem_cons_self
      exact ⟨s', reads_whole.2 (.inr ⟨hk, hread, hend⟩)⟩

end Whole

/-- The parser of formulas accepts what the grammar derives, and nothing else.  It yields an
expression, and reports no problem, exactly if the tokens before the end write that expression.
They do not write another one. -/
theorem whole_iff_written {ts : List Token} {final : Token}
    (body : ∀ t ∈ ts, t.kind ≠ .endOfInput) (ends : final.kind = .endOfInput) :
    (∀ e, (∃ s, whole.on (start (ts ++ [final])) = (some e, s) ∧ s.problems.isEmpty = true) ↔
      Grammar.Written final.span ts e) ∧
    ∀ e e', Grammar.Written final.span ts e → Grammar.Written final.span ts e' → e = e' := by
  have hiff {e : Expr} := reads_whole_iff body ends (s := start (ts ++ [final])) ⟨rfl, rfl⟩ rfl (e := e)
  refine ⟨fun e => ?_, fun e e' h h' => ?_⟩
  · rw [← hiff]
    constructor
    · rintro ⟨s, hon, hempty⟩
      have hclean : s.problems.total = 0 := by simpa [Problems.isEmpty] using hempty
      exact ⟨s, hon, hclean⟩
    · rintro ⟨s, h⟩
      refine ⟨s, h.on, ?_⟩
      have hclean := h.clean
      unfold Problems.isEmpty
      rw [hclean]
      rfl
  · obtain ⟨s, h⟩ := hiff.2 h
    obtain ⟨s', h'⟩ := hiff.2 h'
    cases h.on.symm.trans h'.on
    rfl

/-- A form on the right of an operator reaches to the end: `x - if a then b else c - d`. -/
theorem form_reaches_end :
    Grammar.Written ⟨26, 26, 1, 27⟩
      [⟨.name "x", ⟨0, 1, 1, 1⟩⟩, ⟨.symbol .minus, ⟨2, 3, 1, 3⟩⟩, ⟨.word .ifWord, ⟨4, 6, 1, 5⟩⟩,
        ⟨.name "a", ⟨7, 8, 1, 8⟩⟩, ⟨.word .thenWord, ⟨9, 13, 1, 10⟩⟩, ⟨.name "b", ⟨14, 15, 1, 15⟩⟩,
        ⟨.word .elseWord, ⟨16, 20, 1, 17⟩⟩, ⟨.name "c", ⟨21, 22, 1, 22⟩⟩,
        ⟨.symbol .minus, ⟨23, 24, 1, 24⟩⟩, ⟨.name "d", ⟨25, 26, 1, 26⟩⟩]
      (.binary ⟨0, 26, 1, 1⟩ .sub (.name ⟨0, 1, 1, 1⟩ "x")
        (.branch ⟨4, 26, 1, 5⟩ (.name ⟨7, 8, 1, 8⟩ "a") (.name ⟨14, 15, 1, 15⟩ "b")
          (.binary ⟨21, 26, 1, 22⟩ .sub (.name ⟨21, 22, 1, 22⟩ "c") (.name ⟨25, 26, 1, 26⟩ "d")))) :=
  ((@whole_iff_written _ ⟨.endOfInput, ⟨26, 26, 1, 27⟩⟩ (by decide) rfl).1 _).1 ⟨_, rfl, rfl⟩

end Parser
end Formula
end Workbook
