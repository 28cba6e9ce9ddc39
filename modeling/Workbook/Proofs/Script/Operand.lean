/-
What the parser of scripts reads as an operand is what the grammar says (`Found.suffixed`,
`Found.unary`).

The parser is given the parsers of the expressions and of the statements inside of an operand, and
the grammar what these are (`Found`).
-/
import Workbook.Proofs.Script.Growth
import Workbook.Proofs.Script.Grammar

namespace Workbook
namespace Script
namespace Parser

open Token (Kind Symbol)
open Workbook.Parser
open Grammar (FunctionPhrase ArrowBody Arrow Entries Primary Suffixed Updated Prefixed begins)

/-- The tokens of what is read inside of an expression write it. -/
structure Found (n : Nat) (expr : ExprParser) (block : BlockParser) (E : Phrase Expr)
    (B : Phrase (List Stmt)) : Prop where
  expr : expr.Finds n (Free E)
  body : (functionBody block).Finds n (Free B)
  starts : Starts begins E
  opens : Starts (· = .symbol .leftBrace) B

theorem reads_functionBody {block : BlockParser} {s s' : State} {body : List Stmt} :
    (functionBody block).Reads s body s' ↔
      ∃ s₁, block.Reads (s.within 0) body s₁ ∧ s' = s₁.within s.loops := by
  constructor
  · intro h
    have hon := h.on
    rw [on_functionBody] at hon
    obtain ⟨hbody, hs'⟩ := Prod.ext_iff.1 hon
    have hs' : (block.on (s.within 0)).2.within s.loops = s' := hs'
    refine ⟨(block.on (s.within 0)).2, ⟨Prod.ext hbody rfl, ?_⟩, hs'.symm⟩
    have hclean := h.clean
    rw [← hs'] at hclean
    exact hclean
  · rintro ⟨s₁, h, rfl⟩
    refine ⟨?_, h.clean⟩
    rw [on_functionBody, h.on]

section Operands

variable {n : Nat} {expr deeper : ExprParser} {block : BlockParser} {E U : Phrase Expr}
  {B : Phrase (List Stmt)} [expr.Grows] [block.Grows] [deeper.Grows]

/-! ## Functions -/

/-- The rest of a function after its name. -/
def functionRest (block : BlockParser) (first : Span) (n : Option Name) :
    Workbook.Parser Function := do
  let ps ← parameters
  let body ← functionBody block
  return .mk n ps (.block body) (← since first)

theorem function_eq (block : BlockParser) : function block = (do
    let first ← here
    expectWord .functionWord
    if (← peek).isName then some <$> name >>= functionRest block first
    else functionRest block first none) := rfl

instance (first : Span) (n : Option Name) : (functionRest block first n).Grows := by
  unfold functionRest
  infer_instance

omit [expr.Grows] in
theorem Found.functionRest (h : Found n expr block E B) {first : Span} {k : Option Name}
    {s s' : State} {f : Function} (hs : s.Ready n)
    (hreads : (functionRest block first k).Reads s f s') :
    ∃ ps bs params body, Parameters ps params ∧ B bs body ∧ s.Passes (ps ++ bs) s' ∧
      f = .mk k params (.block body) (first.merge (lastSpan bs)) := by
  unfold Parser.functionRest at hreads
  rw [reads_bind] at hreads
  obtain ⟨params, s₁, hparams, hreads⟩ := hreads
  obtain ⟨ps, hp, passes⟩ := (matches_parameters n).finds hs hparams
  rw [reads_bind] at hreads
  obtain ⟨body, s₂, hbody, hreads⟩ := hreads
  obtain ⟨bs, hb, passes'⟩ := h.body (hs.passes passes) hbody
  rw [reads_since, reads_pure] at hreads
  obtain ⟨rfl, rfl⟩ := hreads
  refine ⟨ps, bs, params, body, hp, hb, passes.append passes', ?_⟩
  rw [passes'.previous_eq (h.opens.ne_nil hb)]

omit [expr.Grows] in
theorem Found.function (h : Found n expr block E B) :
    (function block).Finds n (Free (FunctionPhrase B)) := by
  intro s f s' hs hreads
  rw [function_eq, reads_here, expectWord, reads_expect, reads_peek] at hreads
  obtain ⟨hword, hreads⟩ := hreads
  split at hreads
  · rw [reads_bind] at hreads
    obtain ⟨k, s₁, hk, hreads⟩ := hreads
    obtain ⟨name, hname, rfl⟩ := reads_map.1 hk
    obtain ⟨text, htext, rfl, rfl⟩ := reads_name.1 hname
    obtain ⟨ps, bs, params, body, hp, hb, passes, rfl⟩ := h.functionRest hs.taken.taken hreads
    have hname := nameText?_eq htext
    exact ⟨_, .named hp hb, .taken hword (by decide) (.taken hname (by simp) passes)⟩
  · obtain ⟨ps, bs, params, body, hp, hb, passes, rfl⟩ := h.functionRest hs.taken hreads
    exact ⟨_, .unnamed hp hb, .taken hword (by decide) passes⟩

omit [expr.Grows] [block.Grows] in
theorem Found.arrowBody (h : Found n expr block E B) :
    (arrowBody expr block).Finds n (Free (ArrowBody E B)) := by
  intro s b s' hs hreads
  unfold Parser.arrowBody at hreads
  rw [seesSymbol, reads_sees] at hreads
  split at hreads
  · obtain ⟨body, hbody, rfl⟩ := reads_map.1 hreads
    obtain ⟨ts, hb, passes⟩ := h.body hs hbody
    exact ⟨ts, .block hb, passes⟩
  · rename_i hbrace
    obtain ⟨e, he, rfl⟩ := reads_map.1 hreads
    obtain ⟨ts, hE, passes⟩ := h.expr hs he
    refine ⟨ts, .expr hE fun t ht hk => hbrace (decide_eq_true ?_), passes⟩
    obtain ⟨us, rfl⟩ := List.head?_eq_some_iff.1 ht
    rw [passes.kind, hk]

omit [expr.Grows] [block.Grows] in
theorem ArrowBody.ne_nil (h : Found n expr block E B) {ts : List Token} {b : Body}
    (hb : ArrowBody E B ts b) : ts ≠ [] := by
  cases hb with
  | block hb => exact h.opens.ne_nil hb
  | expr he _ => exact h.starts.ne_nil he

theorem Found.arrow (h : Found n expr block E B) : (arrow expr block).Finds n (Free (Arrow E B)) := by
  intro s e s' hs hreads
  rw [arrow_eq, reads_here, reads_bind] at hreads
  obtain ⟨params, s₁, hparams, hreads⟩ := hreads
  have hrest {s₁ : State} (hs₁ : s₁.Ready n) (hreads : (do
      expectSymbol .arrow
      let body ← Parser.arrowBody expr block
      return .function (.mk none params body (← since s.current.span)) : ExprParser).Reads s₁ e s') :
      ∃ bs body, ArrowBody E B bs body ∧
        s₁.Passes (⟨.symbol .arrow, s₁.current.span⟩ :: bs) s' ∧
        e = .function (.mk none params body (s.current.span.merge (lastSpan bs))) := by
    rw [expectSymbol, reads_expect, reads_bind] at hreads
    obtain ⟨harrow, body, s₂, hbody, hreads⟩ := hreads
    obtain ⟨bs, hb, passes⟩ := h.arrowBody hs₁.taken hbody
    rw [reads_since, reads_pure] at hreads
    obtain ⟨rfl, rfl⟩ := hreads
    refine ⟨bs, body, hb, .taken harrow (by decide) passes, ?_⟩
    rw [passes.previous_eq (ArrowBody.ne_nil h hb)]
  unfold arrowParameters at hparams
  rw [seesSymbol, reads_sees] at hparams
  split at hparams
  · obtain ⟨ps, hp, passes⟩ := (matches_parameters n).finds hs hparams
    obtain ⟨bs, body, hb, passes', rfl⟩ := hrest (hs.passes passes) hreads
    cases hp with
    | mk hlisted =>
      have hcurrent := passes.head.1
      rw [hcurrent]
      exact ⟨_, .listed (.mk hlisted) hb, passes.append passes'⟩
  · obtain ⟨name, hname, rfl⟩ := reads_map.1 hparams
    obtain ⟨text, htext, rfl, rfl⟩ := reads_name.1 hname
    obtain ⟨bs, body, hb, passes, rfl⟩ := hrest hs.taken hreads
    exact ⟨_, .single hb, .taken (nameText?_eq htext) (by simp) passes⟩

/-! ## Entries -/

omit [expr.Grows] in
theorem Found.entryValue (h : Found n expr block E B) {k : Kind} {key : String} {span : Span}
    {s s' : State} {e : Expr} (hs : s.Ready n) (hk : keyText? k = some key)
    (hreads : (entryValue expr block ⟨key, span⟩).Reads s e s') :
    ∃ ts, Entries E B (⟨k, span⟩ :: ts) (.field ⟨key, span⟩ e) ∧ s.Passes ts s' := by
  unfold Parser.entryValue at hreads
  rw [seesSymbol, reads_sees] at hreads
  split at hreads
  · rw [reads_bind] at hreads
    obtain ⟨params, s₁, hparams, hreads⟩ := hreads
    obtain ⟨ps, hp, passes⟩ := (matches_parameters n).finds hs hparams
    rw [reads_bind] at hreads
    obtain ⟨body, s₂, hbody, hreads⟩ := hreads
    obtain ⟨bs, hb, passes'⟩ := h.body (hs.passes passes) hbody
    rw [reads_since, reads_pure] at hreads
    obtain ⟨rfl, rfl⟩ := hreads
    rw [passes'.previous_eq (h.opens.ne_nil hb)]
    exact ⟨_, .method hk hp hb, passes.append passes'⟩
  · rw [expectSymbol, reads_expect] at hreads
    obtain ⟨hcolon, hreads⟩ := hreads
    obtain ⟨ts, hE, passes⟩ := h.expr hs.taken hreads
    exact ⟨_, .field hk hE, .taken hcolon (by decide) passes⟩

theorem Found.entry (h : Found n expr block E B) : (entry expr block).Finds n (Free (Entries E B)) := by
  intro s a s' hs hreads
  unfold Parser.entry at hreads
  rw [eatsSymbol, reads_eats] at hreads
  obtain ⟨hdots, hreads⟩ | ⟨-, hreads⟩ := hreads
  · rw [if_pos rfl, reads_bind] at hreads
    obtain ⟨e, s₁, he, hreads⟩ := hreads
    obtain ⟨rfl, rfl⟩ := reads_pure.1 hreads
    obtain ⟨ts, hE, passes⟩ := h.expr hs.taken he
    exact ⟨_, .spread hE, .taken hdots (by decide) passes⟩
  · rw [if_neg Bool.false_ne_true, reads_seesShorthand, reads_bind] at hreads
    obtain ⟨key, s₁, hkey, hreads⟩ := hreads
    obtain ⟨text, htext, rfl, rfl⟩ := reads_key.1 hkey
    have hne : s.kind ≠ .endOfInput := by
      intro he
      rw [he] at htext
      cases htext
    split at hreads
    · rename_i hshort
      obtain ⟨rfl, rfl⟩ := reads_pure.1 hreads
      cases hname : s.kind with
      | name x =>
        rw [hname] at htext
        cases htext
        exact ⟨_, .short, .taken hname (by simp) (.nil _)⟩
      | _ =>
        rw [hname] at hshort
        cases hshort
    · rw [reads_bind] at hreads
      obtain ⟨e, s₁, he, hreads⟩ := hreads
      obtain ⟨rfl, rfl⟩ := reads_pure.1 hreads
      obtain ⟨ts, hentry, passes⟩ := h.entryValue hs.taken htext he
      exact ⟨_, hentry, .taken rfl hne passes⟩

/-! ## What stands for itself -/

theorem Found.primary (h : Found n expr block E B) :
    (primary expr block).Finds n (Free (Primary E B)) := by
  intro s e s' hs hreads
  -- A token that stands for itself.
  have hone {k : Kind} {f : Span → Expr} (hk : s.kind = k) (hne : k ≠ .endOfInput)
      (hP : Primary E B [⟨k, s.current.span⟩] (f s.current.span))
      (hreads : (do return f (← take) : ExprParser).Reads s e s') :
      ∃ ts, Primary E B ts e ∧ s.Passes ts s' := by
    rw [reads_take, reads_pure] at hreads
    obtain ⟨rfl, rfl⟩ := hreads
    exact ⟨_, hP, .taken hk hne (.nil _)⟩
  unfold Parser.primary at hreads
  rw [reads_peek] at hreads
  cases hk : s.kind with
  | number m =>
    simp only [hk] at hreads
    exact hone hk (by simp) .number hreads
  | string text =>
    simp only [hk] at hreads
    exact hone hk (by simp) .string hreads
  | stringStart text =>
    simp only [hk] at hreads
    rw [reads_take, reads_bind] at hreads
    obtain ⟨ps, s₁, hps, hreads⟩ := hreads
    rw [reads_since, reads_pure] at hreads
    obtain ⟨rfl, rfl⟩ := hreads
    obtain ⟨ts, qs, hholes, rfl, passes⟩ := pieces_sound h.expr hs.taken hps
    have hne : ts ≠ [] := by
      rintro rfl
      cases hholes
    rw [passes.previous_eq hne]
    exact ⟨_, .template hholes, .taken hk (by simp) passes⟩
  | name text =>
    simp only [hk] at hreads
    exact hone hk (by simp) .name hreads
  | word w =>
    cases w with
    | trueWord =>
      simp only [hk] at hreads
      exact hone hk (by simp) .trueWord hreads
    | falseWord =>
      simp only [hk] at hreads
      exact hone hk (by simp) .falseWord hreads
    | nullWord =>
      simp only [hk] at hreads
      exact hone hk (by simp) .nullWord hreads
    | undefinedWord =>
      simp only [hk] at hreads
      exact hone hk (by simp) .undefinedWord hreads
    | functionWord =>
      simp only [hk] at hreads
      obtain ⟨f, s₁, hf, hreads⟩ := reads_bind.1 hreads
      obtain ⟨rfl, rfl⟩ := reads_pure.1 hreads
      obtain ⟨ts, hP, passes⟩ := h.function hs hf
      exact ⟨ts, .function hP, passes⟩
    | _ =>
      simp only [hk] at hreads
      exact absurd hreads not_reads_reject
  | symbol x =>
    cases x with
    | leftBracket =>
      simp only [hk] at hreads
      rw [reads_take, reads_bind] at hreads
      obtain ⟨items, s₁, hitems, hreads⟩ := hreads
      rw [reads_since, reads_pure] at hreads
      obtain ⟨rfl, rfl⟩ := hreads
      obtain ⟨ts, last, hlisted, passes⟩ := closedBy_sound h.expr.item hs.taken hitems
      rw [passes.previous]
      exact ⟨_, .array hlisted, .taken hk (by simp) passes⟩
    | leftBrace =>
      simp only [hk] at hreads
      rw [reads_take, reads_bind] at hreads
      obtain ⟨entries, s₁, hentries, hreads⟩ := hreads
      rw [reads_since, reads_pure] at hreads
      obtain ⟨rfl, rfl⟩ := hreads
      obtain ⟨ts, last, hlisted, passes⟩ := closedBy_sound h.entry hs.taken hentries
      rw [passes.previous]
      exact ⟨_, .object hlisted, .taken hk (by simp) passes⟩
    | leftParen =>
      simp only [hk] at hreads
      rw [reads_take, reads_bind] at hreads
      obtain ⟨inner, s₁, hinner, hreads⟩ := hreads
      rw [expectSymbol, reads_expect, reads_pure] at hreads
      obtain ⟨hclose, rfl, rfl⟩ := hreads
      obtain ⟨ts, hE, passes⟩ := h.expr hs.taken hinner
      exact ⟨_, .parenthesized hE,
        .taken hk (by simp) (passes.append (.taken hclose (by decide) (.nil _)))⟩
    | _ =>
      simp only [hk] at hreads
      exact absurd hreads not_reads_reject
  | _ =>
    simp only [hk] at hreads
    exact absurd hreads not_reads_reject

/-! ## What comes after an operand -/

omit [block.Grows] in
/-- From what has been read, the suffixes after it are read. -/
theorem Found.suffixes (h : Found n expr block E B) {fuel : Nat} {s₀ s s' : State} {ts : List Token}
    {e a : Expr} (hs : s₀.Ready n) (before : Suffixed E B ts e) (passes : s₀.Passes ts s)
    (hreads : (suffixes expr fuel e).Reads s a s') :
    ∃ us, Suffixed E B us a ∧ s₀.Passes us s' := by
  induction fuel generalizing s e ts with
  | zero =>
    obtain ⟨rfl, rfl⟩ := reads_pure.1 hreads
    exact ⟨ts, before, passes⟩
  | succ fuel ih =>
    have hs₁ := hs.passes passes
    unfold Parser.suffixes at hreads
    rw [reads_peek] at hreads
    split at hreads
    · rename_i hk
      rw [reads_take, reads_bind] at hreads
      obtain ⟨key, s₁, hkey, hreads⟩ := hreads
      obtain ⟨text, htext, rfl, rfl⟩ := reads_memberName.1 hkey
      have hne : s.taken.kind ≠ .endOfInput := by
        intro he
        rw [he] at htext
        cases htext
      have hnext := State.Passes.taken hk (by decide) (.taken rfl hne (.nil _))
      exact ih (.member before htext) (passes.append hnext) hreads
    · rename_i hk
      rw [reads_take, reads_bind] at hreads
      obtain ⟨key, s₁, hkey, hreads⟩ := hreads
      obtain ⟨us, hE, passes₁⟩ := h.expr hs₁.taken hkey
      rw [expectSymbol, reads_expect, reads_since] at hreads
      obtain ⟨hclose, hreads⟩ := hreads
      have hinner := passes₁.append (.taken hclose (by decide) (.nil _))
      have hnext := State.Passes.taken hk (by decide) hinner
      rw [hinner.previous] at hreads
      exact ih (.index before hE) (passes.append hnext) hreads
    · rename_i hk
      rw [reads_take, reads_bind] at hreads
      obtain ⟨arguments, s₁, hargs, hreads⟩ := hreads
      obtain ⟨us, last, hlisted, passes₁⟩ := closedBy_sound h.expr.item hs₁.taken hargs
      have hnext := State.Passes.taken hk (by decide) passes₁
      rw [reads_since, passes₁.previous] at hreads
      exact ih (.call before hlisted) (passes.append hnext) hreads
    · obtain ⟨rfl, rfl⟩ := reads_pure.1 hreads
      exact ⟨ts, before, passes⟩

/-- A target is checked before it is written to. -/
theorem reads_checkTarget {β : Type} {f : Unit → Workbook.Parser β} [∀ u, (f u).Grows] {e : Expr}
    {s s' : State} {b : β} : (checkTarget e >>= f).Reads s b s' ↔
      e.isTarget = true ∧ (f ()).Reads s b s' := by
  unfold checkTarget
  by_cases ht : e.isTarget = true
  · rw [if_neg (by simp [ht])]
    simp [ht]
  · rw [if_pos (by simpa using ht)]
    refine ⟨fun h => ?_, fun h => absurd h.1 ht⟩
    exact absurd h not_reads_reportAt

theorem reads_stepped {e a : Expr} {s s' : State} : (stepped e).Reads s a s' ↔
    (∃ increment, stepOp s.kind = some increment ∧ s.onSameLine = true ∧ e.isTarget = true ∧
      a = .update (e.span.merge s.current.span) increment false e ∧ s' = s.taken) ∨
    ((stepOp s.kind = none ∨ s.onSameLine = false) ∧ a = e ∧ s' = s) := by
  unfold stepped
  rw [reads_get]
  cases hstep : stepOp s.kind with
  | none => simp [reads_pure]
  | some increment =>
    have hne : s.kind ≠ .endOfInput := by
      intro hk
      rw [hk] at hstep
      cases hstep
    by_cases hline : s.onSameLine = true
    · simp only [hline, if_true]
      rw [reads_take, reads_checkTarget, reads_since, reads_pure, State.previous_taken hne]
      simp
    · simp only [hline]
      simp [reads_pure]

theorem Found.suffixed (h : Found n expr block E B) :
    (suffixed expr block).Finds n (Free (Updated E B)) := by
  intro s a s' hs hreads
  rw [suffixed_eq, reads_bind] at hreads
  obtain ⟨e₀, s₁, he₀, hreads⟩ := hreads
  obtain ⟨ts₀, hP, passes₀⟩ := h.primary hs he₀
  rw [reads_get, reads_bind] at hreads
  obtain ⟨e, s₂, he, hreads⟩ := hreads
  obtain ⟨ts, hsuffixed, passes⟩ := h.suffixes hs (.primary hP) passes₀ he
  obtain ⟨increment, hstep, hline, htarget, rfl, rfl⟩ | ⟨-, rfl, rfl⟩ := reads_stepped.1 hreads
  · have hne : s₂.kind ≠ .endOfInput := by
      intro hk
      rw [hk] at hstep
      cases hstep
    have hline : s₂.current.span.line = s₂.previous.line := by
      simpa [State.onSameLine] using hline
    rw [passes.previous_eq (Grammar.starts_suffixed.ne_nil hsuffixed)] at hline
    exact ⟨_, .step hsuffixed hstep htarget hline, passes.append (.one hne)⟩
  · exact ⟨ts, .suffixed hsuffixed, passes⟩

/-! ## What comes in front of an operand -/

theorem Found.unary (h : Found n expr block E B) (inner : (nested deeper).Finds n (Free U))
    (steps : Nat) : (unary expr block deeper steps).Finds n (Free (Prefixed E B U)) := by
  induction steps with
  | zero => exact h.suffixed.imp fun _ _ _ => .updated
  | succ steps ih =>
    intro s e s' hs hreads
    unfold Parser.unary at hreads
    rw [reads_peek] at hreads
    split at hreads
    · rename_i op hop
      rw [reads_take, reads_bind] at hreads
      obtain ⟨operand, s₁, hoperand, hreads⟩ := hreads
      obtain ⟨rfl, rfl⟩ := reads_pure.1 hreads
      obtain ⟨ts, hU, passes⟩ := inner hs.taken hoperand
      have hne : s.kind ≠ .endOfInput := by
        intro hk
        rw [hk] at hop
        cases hop
      exact ⟨_, .sign hop hU, .taken rfl hne passes⟩
    · rename_i increment hsign hstep
      rw [reads_take, reads_bind] at hreads
      obtain ⟨target, s₁, htarget, hreads⟩ := hreads
      rw [reads_checkTarget, reads_pure] at hreads
      obtain ⟨hisTarget, rfl, rfl⟩ := hreads
      obtain ⟨ts, hP, passes⟩ := ih hs.taken htarget
      have hne : s.kind ≠ .endOfInput := by
        intro hk
        rw [hk] at hstep
        cases hstep
      exact ⟨_, .step hstep hisTarget hP, .taken rfl hne passes⟩
    · obtain ⟨ts, hU, passes⟩ := h.suffixed hs hreads
      exact ⟨ts, .updated hU, passes⟩

end Operands

end Parser
end Script
end Workbook
