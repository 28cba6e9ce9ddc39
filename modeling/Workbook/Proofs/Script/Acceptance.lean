/-
The parser of scripts reads the operands and the operators that the grammar says, where what follows
does not go on with them: what stands for itself (`Accepted.primary`), what comes after an operand
and in front of it (`Accepted.suffixed`, `Accepted.unary`), and the operators from the tightest to
the loosest, up to `Accepted.assignment`.
-/
import Workbook.Proofs.Script.Arrow

namespace Workbook
namespace Script
namespace Parser

open Token (Kind Symbol)
open Workbook.Parser
open Grammar (rank joins FunctionPhrase ArrowBody Arrow Entries Primary Suffixed Updated Prefixed Power
  Coalesced Conditional Assignment begins)

/-- What is written inside of an expression is read. -/
structure Accepted (n : Nat) (expr : ExprParser) (block : BlockParser) (E : Phrase Expr)
    (B : Phrase (List Stmt)) : Prop where
  expr : expr.Accepts n (Ended rank E)
  body : (functionBody block).Accepts n (Free B)
  starts : Starts begins E
  opens : Starts (· = .symbol .leftBrace) B

section Operands

variable {n : Nat} {expr deeper : ExprParser} {block : BlockParser} {E U : Phrase Expr}
  {B : Phrase (List Stmt)} {s s' : State} {ts : List Token} {e : Expr}

/-! ## Functions -/

theorem Accepted.functionRest (h : Accepted n expr block E B) {first : Span} {k : Option Name}
    {ps bs : List Token} {params : List Name} {body : List Stmt} (hs : s.Ready n)
    (hp : Parameters ps params) (hb : B bs body) (passes : s.Passes (ps ++ bs) s') :
    (functionRest block first k).Reads s
      (.mk k params (.block body) (first.merge (lastSpan bs))) s' := by
  obtain ⟨s₁, passes₁, passes₂⟩ := passes.of_append
  unfold Parser.functionRest
  refine ((matches_parameters n).accepts hs hp passes₁).bind ?_
  refine (h.body (hs.passes passes₁) hb passes₂).bind ?_
  rw [reads_since, passes₂.previous_eq (h.opens.ne_nil hb)]
  exact reads_pure.2 ⟨rfl, rfl⟩

theorem Accepted.function (h : Accepted n expr block E B) :
    (function block).Accepts n (Free (FunctionPhrase B)) := by
  intro s f s' ts hs hf passes
  rw [function_eq, reads_here, expectWord, reads_expect, reads_peek]
  cases hf with
  | named hp hb =>
    obtain ⟨hfirst, -, passes⟩ := passes.head
    obtain ⟨hname, -, passes⟩ := passes.head
    have hname' : s.taken.kind = _ := congrArg Token.kind hname
    refine ⟨congrArg Token.kind hfirst, ?_⟩
    rw [if_pos (by rw [hname']; rfl), hfirst]
    refine Reads.bind (reads_map.2 ⟨_, reads_name.2 ⟨_, by rw [hname']; rfl, rfl, rfl⟩, rfl⟩) ?_
    rw [hname]
    exact h.functionRest hs.taken.taken hp hb passes
  | unnamed hp hb =>
    obtain ⟨hfirst, -, passes⟩ := passes.head
    refine ⟨congrArg Token.kind hfirst, ?_⟩
    rw [if_neg ?_, hfirst]
    · exact h.functionRest hs.taken hp hb passes
    · cases hp
      rw [passes.kind]
      simp [Kind.isName]

theorem Accepted.arrowBody (h : Accepted n expr block E B) :
    (arrowBody expr block).Accepts n (Ended rank (ArrowBody E B)) := by
  intro s b s' ts hs ⟨hb, hrank⟩ passes
  unfold Parser.arrowBody
  rw [seesSymbol, reads_sees]
  cases hb with
  | block hb =>
    obtain ⟨t, us, rfl, ht⟩ := h.opens hb
    rw [if_pos (by rw [passes.kind]; exact ht)]
    exact reads_map.2 ⟨_, h.body hs hb passes, rfl⟩
  | expr he hts =>
    obtain ⟨t, us, rfl, -⟩ := h.starts he
    rw [if_neg (by simpa [passes.kind] using hts t rfl)]
    exact reads_map.2 ⟨_, h.expr hs ⟨he, hrank⟩ passes, rfl⟩

theorem arrowBody_ne_nil (h : Accepted n expr block E B) {b : Body} (hb : ArrowBody E B ts b) :
    ts ≠ [] := by
  cases hb with
  | block hb => exact h.opens.ne_nil hb
  | expr he _ => exact h.starts.ne_nil he

theorem Accepted.arrow (h : Accepted n expr block E B) :
    (arrow expr block).Accepts n (Ended rank (Arrow E B)) := by
  intro s e s' ts hs ⟨he, hrank⟩ passes
  rw [arrow_eq, reads_here]
  have hrest {s₁ : State} {bs : List Token} {first arrow : Span} {params : List Name} {body : Body}
      (hs₁ : s₁.Ready n) (hb : ArrowBody E B bs body)
      (passes : s₁.Passes (⟨.symbol .arrow, arrow⟩ :: bs) s') : (do
        expectSymbol .arrow
        let body ← Parser.arrowBody expr block
        return .function (.mk none params body (← since first)) : ExprParser).Reads s₁
          (.function (.mk none params body (first.merge (lastSpan bs)))) s' := by
    obtain ⟨harrow, -, passes⟩ := passes.head
    rw [expectSymbol, reads_expect]
    refine ⟨congrArg Token.kind harrow, ?_⟩
    refine (h.arrowBody hs₁.taken ⟨hb, hrank⟩ passes).bind ?_
    rw [reads_since, passes.previous_eq (arrowBody_ne_nil h hb)]
    exact reads_pure.2 ⟨rfl, rfl⟩
  cases he with
  | @single bs name span arrow body hb =>
    obtain ⟨hfirst, -, passes⟩ := passes.head
    have hk : s.kind = .name name := congrArg Token.kind hfirst
    have hparams : arrowParameters.Reads s [⟨name, span⟩] s.taken := by
      unfold arrowParameters
      rw [seesSymbol, reads_sees, if_neg (by simp [hk])]
      exact reads_map.2 ⟨_, reads_name.2 ⟨name, by rw [hk]; rfl, by rw [hfirst], rfl⟩, rfl⟩
    rw [hfirst]
    exact hparams.bind (hrest hs.taken hb passes)
  | @listed t ps bs arrow params body hp hb =>
    rw [← List.cons_append] at passes
    obtain ⟨s₁, passes₁, passes₂⟩ := passes.of_append
    have hfirst := passes₁.head.1
    have hparams : arrowParameters.Reads s params s₁ := by
      unfold arrowParameters
      rw [seesSymbol, reads_sees, if_pos]
      · exact (matches_parameters n).accepts hs hp passes₁
      · cases hp
        exact decide_eq_true (congrArg Token.kind hfirst)
    rw [hfirst]
    exact hparams.bind (hrest (hs.passes passes₁) hb passes₂)

/-! ## Entries -/

/-- What comes after a key: a colon and a value, or the rest of a method. -/
theorem Accepted.entryValue (h : Accepted n expr block E B) {key : String} {k : Kind} {span : Span}
    (hs : s.Ready n) (hentry : Entries E B (⟨k, span⟩ :: ts) (.field ⟨key, span⟩ e))
    (hts : ts ≠ []) (hrank : rank s'.kind = 0) (passes : s.Passes ts s') :
    (entryValue expr block ⟨key, span⟩).Reads s e s' := by
  unfold Parser.entryValue
  rw [seesSymbol, reads_sees]
  cases hentry with
  | short => exact absurd rfl hts
  | field _ he =>
    obtain ⟨hcolon, -, passes⟩ := passes.head
    have hk : s.kind = _ := congrArg Token.kind hcolon
    rw [if_neg (by simp [hk]), expectSymbol, reads_expect]
    exact ⟨hk, h.expr hs.taken ⟨he, hrank⟩ passes⟩
  | method _ hp hb =>
    obtain ⟨s₁, passes₁, passes₂⟩ := passes.of_append
    have hk : s.kind = .symbol .leftParen := by
      cases hp
      exact passes₁.kind
    rw [if_pos (decide_eq_true hk)]
    refine ((matches_parameters n).accepts hs hp passes₁).bind ?_
    refine (h.body (hs.passes passes₁) hb passes₂).bind ?_
    rw [reads_since, passes₂.previous_eq (h.opens.ne_nil hb)]
    exact reads_pure.2 ⟨rfl, rfl⟩

/-- An entry with a key: it is short if a comma or the end of the object comes next. -/
theorem reads_keyed {key : String} {k : Kind} {span : Span}
    (hk : keyText? k = some key) (passes : s.Passes (⟨k, span⟩ :: ts) s')
    (hrest : (s.kind.isName && (s.kindAt 1 = .symbol .comma || s.kindAt 1 = .symbol .rightBrace)) =
        true ∧ e = .name span key ∧ s' = s.taken ∨
      (s.kind.isName && (s.kindAt 1 = .symbol .comma || s.kindAt 1 = .symbol .rightBrace)) =
        false ∧ (entryValue expr block ⟨key, span⟩).Reads s.taken e s') :
    (entry expr block).Reads s (.field ⟨key, span⟩ e) s' := by
  obtain ⟨hfirst, -, -⟩ := passes.head
  have hkind : s.kind = k := congrArg Token.kind hfirst
  unfold entry
  rw [eatsSymbol, reads_eats]
  refine .inr ⟨?_, ?_⟩
  · rw [hkind]
    rintro rfl
    cases hk
  · rw [if_neg Bool.false_ne_true, reads_seesShorthand]
    refine Reads.bind (reads_key.2 ⟨key, by rw [hkind]; exact hk, rfl, rfl⟩) ?_
    rw [hfirst]
    obtain ⟨hshort, rfl, rfl⟩ | ⟨hlong, hvalue⟩ := hrest
    · rw [if_pos hshort]
      exact reads_pure.2 ⟨rfl, rfl⟩
    · rw [if_neg (by rw [hlong]; exact Bool.false_ne_true)]
      exact hvalue.bind (reads_pure.2 ⟨rfl, rfl⟩)

theorem Accepted.entry (h : Accepted n expr block E B) :
    (entry expr block).Accepts n (Apart .rightBrace (Entries E B)) := by
  intro s a s' ts hs ⟨ha, follows⟩ passes
  have hrank : rank s'.kind = 0 := by
    obtain hk | hk := follows <;> rw [hk] <;> rfl
  cases ha with
  | spread he =>
    obtain ⟨hdots, -, passes⟩ := passes.head
    unfold Parser.entry
    rw [eatsSymbol, reads_eats]
    refine .inl ⟨congrArg Token.kind hdots, ?_⟩
    exact (h.expr hs.taken ⟨he, hrank⟩ passes).bind (reads_pure.2 ⟨rfl, rfl⟩)
  | @short name span =>
    refine reads_keyed rfl passes (.inl ?_)
    obtain ⟨hfirst, -, hnil⟩ := passes.head
    cases hnil
    have hk : s.kind = .name name := congrArg Token.kind hfirst
    refine ⟨?_, rfl, rfl⟩
    rw [kindAt_one (by simp [hk]), hk]
    obtain hk | hk := follows <;> rw [hk] <;> rfl
  | @field us k key span colon e hk he =>
    refine reads_keyed hk passes (.inr ?_)
    obtain ⟨hfirst, hne, hlast⟩ := passes.head
    have hkind : s.kind = k := congrArg Token.kind hfirst
    have hcolon : s.taken.kind = .symbol .colon := hlast.kind
    refine ⟨?_, h.entryValue hs.taken (.field hk he) (List.cons_ne_nil _ _) hrank hlast⟩
    rw [kindAt_one (by rw [hkind]; exact hne), hcolon]
    simp
  | @method ps bs k key span params body hk hp hb =>
    refine reads_keyed hk passes (.inr ?_)
    obtain ⟨hfirst, hne, hlast⟩ := passes.head
    have hkind : s.kind = k := congrArg Token.kind hfirst
    have hopen : s.taken.kind = .symbol .leftParen := by
      cases hp
      exact hlast.kind
    have hts : ps ++ bs ≠ [] := by
      cases hp
      exact List.cons_ne_nil _ _
    refine ⟨?_, h.entryValue hs.taken (.method hk hp hb) hts hrank hlast⟩
    rw [kindAt_one (by rw [hkind]; exact hne), hopen]
    simp

/-! ## What stands for itself -/

/-- Items up to a symbol that closes them. -/
theorem Accepted.reads_items (h : Accepted n expr block E B) {close : Symbol}
    (hclose : begins (.symbol close) = false) (hrank : rank (.symbol close) = 0)
    (hne : close ≠ .dotDotDot ∧ close ≠ .comma) {items : List (Item Expr)} {last : Span}
    (hs : s.Ready n) (hl : Listed (Items E) ts items)
    (passes : s.Passes (ts ++ [⟨.symbol close, last⟩]) s') :
    (closedBy close (item expr)).Reads s items s' :=
  closedBy_complete ((h.starts.avoids hclose).items hne.1)
    ((h.expr.apart rfl hrank).item (h.starts.avoids rfl)) hne.2 hs hl passes

theorem avoids_entries : Avoids .rightBrace (Entries E B) := by
  intro ts a ha
  cases ha with
  | spread _ | short => exact ⟨_, _, rfl, by simp⟩
  | field hk _ | method hk _ _ =>
    refine ⟨_, _, rfl, ?_⟩
    rintro rfl
    cases hk

theorem Accepted.primary (h : Accepted n expr block E B) [expr.Grows] [block.Grows] :
    (primary expr block).Accepts n (Free (Primary E B)) := by
  intro s e s' ts hs he passes
  unfold Parser.primary
  rw [reads_peek]
  cases he with
  | number | string | name | trueWord | falseWord | nullWord | undefinedWord =>
    obtain ⟨hfirst, -, hnil⟩ := passes.head
    cases hnil
    have hk : s.kind = _ := congrArg Token.kind hfirst
    simp only [hk]
    rw [reads_take, hfirst, reads_pure]
    exact ⟨rfl, rfl⟩
  | @template us _ _ _ hholes =>
    obtain ⟨hfirst, -, hlast⟩ := passes.head
    have hk : s.kind = _ := congrArg Token.kind hfirst
    have hne : us ≠ [] := by
      rintro rfl
      cases hholes
    simp only [hk]
    rw [reads_take]
    refine Reads.bind (pieces_complete h.expr rfl hs.taken hholes hlast) ?_
    rw [reads_since, hlast.previous_eq hne, hfirst, reads_pure]
    exact ⟨rfl, rfl⟩
  | function hf =>
    have hk : s.kind = .word .functionWord := by
      cases hf <;> exact passes.kind
    simp only [hk]
    exact (h.function hs hf passes).bind (reads_pure.2 ⟨rfl, rfl⟩)
  | array hl =>
    obtain ⟨hfirst, -, hlast⟩ := passes.head
    have hk : s.kind = _ := congrArg Token.kind hfirst
    simp only [hk]
    rw [reads_take]
    refine Reads.bind (h.reads_items rfl rfl (by decide) hs.taken hl hlast) ?_
    rw [reads_since, hlast.previous, hfirst, reads_pure]
    exact ⟨rfl, rfl⟩
  | object hl =>
    obtain ⟨hfirst, -, hlast⟩ := passes.head
    have hk : s.kind = _ := congrArg Token.kind hfirst
    simp only [hk]
    rw [reads_take]
    refine Reads.bind (closedBy_complete avoids_entries h.entry (by decide) hs.taken hl hlast) ?_
    rw [reads_since, hlast.previous, hfirst, reads_pure]
    exact ⟨rfl, rfl⟩
  | parenthesized he =>
    obtain ⟨hfirst, -, hlast⟩ := passes.head
    have hk : s.kind = _ := congrArg Token.kind hfirst
    obtain ⟨s₁, passes₁, hlast⟩ := hlast.of_append
    obtain ⟨hclose, -, hlast⟩ := hlast.head
    cases hlast
    have hclose : s₁.kind = .symbol .rightParen := congrArg Token.kind hclose
    simp only [hk]
    rw [reads_take]
    refine (h.expr hs.taken ⟨he, by rw [hclose]; rfl⟩ passes₁).bind ?_
    rw [expectSymbol, reads_expect, reads_pure]
    exact ⟨hclose, rfl, rfl⟩

/-! ## What comes after an operand -/

/-- What is no suffix holds an operand less tightly. -/
theorem reads_suffixes {fuel : Nat} {a : Expr} (hk : rank s.kind < 12) :
    (suffixes expr fuel e).Reads s a s' ↔ a = e ∧ s' = s := by
  cases fuel with
  | zero => exact reads_pure
  | succ fuel =>
    unfold suffixes
    rw [reads_peek]
    split
    · rename_i hdot
      rw [hdot] at hk
      exact absurd hk (by decide)
    · rename_i hbracket
      rw [hbracket] at hk
      exact absurd hk (by decide)
    · rename_i hparen
      rw [hparen] at hk
      exact absurd hk (by decide)
    · exact reads_pure

/-- After an operand and suffixes have been read, more suffixes can follow. -/
theorem Accepted.suffixes (h : Accepted n expr block E B) [expr.Grows] [block.Grows] {s₁ : State}
    (hs : s.Ready n) (he : Suffixed E B ts e) (passes : s.Passes ts s₁) :
    ∃ fuel, s₁.rest.length ≤ fuel ∧ ∀ a s', (Parser.suffixes expr fuel e).Reads s₁ a s' →
      (Parser.primary expr block >>= fun e => get >>= fun s =>
        Parser.suffixes expr s.rest.length e).Reads s a s' := by
  induction he generalizing s₁ with
  | primary hp =>
    refine ⟨s₁.rest.length, Nat.le_refl _, fun a s' hrest => ?_⟩
    exact (h.primary hs hp passes).bind (reads_get.2 hrest)
  | member _ htext ih =>
    obtain ⟨s₂, hfirst, hlast⟩ := passes.of_append
    obtain ⟨fuel, hfuel, hgo⟩ := ih hfirst
    obtain ⟨fuel, rfl, hle⟩ := hlast.fuel hfuel
    refine ⟨fuel, hle, fun a s' hrest => hgo a s' ?_⟩
    obtain ⟨hdot, -, hlast⟩ := hlast.head
    obtain ⟨hkey, -, hlast⟩ := hlast.head
    cases hlast
    have hk : s₂.kind = .symbol .dot := congrArg Token.kind hdot
    have hkey' : s₂.taken.kind = _ := congrArg Token.kind hkey
    unfold Parser.suffixes
    rw [reads_peek]
    simp only [hk]
    rw [reads_take]
    refine Reads.bind (reads_memberName.2 ⟨_, by rw [hkey']; exact htext, rfl, rfl⟩) ?_
    rw [hkey]
    exact hrest
  | index _ hE ih =>
    obtain ⟨s₂, hfirst, hlast⟩ := passes.of_append
    obtain ⟨fuel, hfuel, hgo⟩ := ih hfirst
    obtain ⟨fuel, rfl, hle⟩ := hlast.fuel hfuel
    refine ⟨fuel, hle, fun a s' hrest => hgo a s' ?_⟩
    have hs₂ := hs.passes hfirst
    obtain ⟨hopen, -, hlast⟩ := hlast.head
    have hprevious := hlast.previous
    obtain ⟨s₃, hkey, hlast⟩ := hlast.of_append
    obtain ⟨hclose, -, hlast⟩ := hlast.head
    cases hlast
    have hk : s₂.kind = .symbol .leftBracket := congrArg Token.kind hopen
    have hclose : s₃.kind = .symbol .rightBracket := congrArg Token.kind hclose
    unfold Parser.suffixes
    rw [reads_peek]
    simp only [hk]
    rw [reads_take]
    refine (h.expr hs₂.taken ⟨hE, by rw [hclose]; rfl⟩ hkey).bind ?_
    rw [expectSymbol, reads_expect, reads_since, hprevious]
    exact ⟨hclose, hrest⟩
  | call _ hlisted ih =>
    obtain ⟨s₂, hfirst, hlast⟩ := passes.of_append
    obtain ⟨fuel, hfuel, hgo⟩ := ih hfirst
    obtain ⟨fuel, rfl, hle⟩ := hlast.fuel hfuel
    refine ⟨fuel, hle, fun a s' hrest => hgo a s' ?_⟩
    have hs₂ := hs.passes hfirst
    obtain ⟨hopen, -, hlast⟩ := hlast.head
    have hk : s₂.kind = .symbol .leftParen := congrArg Token.kind hopen
    unfold Parser.suffixes
    rw [reads_peek]
    simp only [hk]
    rw [reads_take]
    refine (h.reads_items rfl rfl (by decide) hs₂.taken hlisted hlast).bind ?_
    rw [reads_since, hlast.previous]
    exact hrest

/-- What `++` or `--` is holds an operand more tightly than other operators. -/
theorem stepOp_eq_none {k : Kind} (hk : rank k < 11) : stepOp k = none := by
  cases k with
  | symbol x => cases x <;> first | rfl | exact absurd hk (by decide)
  | _ => rfl

theorem rank_of_stepOp {k : Kind} {increment : Bool} (hk : stepOp k = some increment) :
    rank k < 12 := by
  cases k with
  | symbol x => cases x <;> first | decide | cases hk
  | _ => cases hk

theorem Accepted.suffixed (h : Accepted n expr block E B) [expr.Grows] [block.Grows] :
    (suffixed expr block).Accepts n (Below rank 11 (Updated E B)) := by
  intro s a s' ts hs ⟨ha, hrank⟩ passes
  have hread {s₁ : State} {us : List Token} {e : Expr} (he : Suffixed E B us e)
      (hpasses : s.Passes us s₁) (hk : rank s₁.kind < 12) (hstep : (stepped e).Reads s₁ a s') :
      (Parser.suffixed expr block).Reads s a s' := by
    obtain ⟨fuel, -, hgo⟩ := h.suffixes hs he hpasses
    have hall := (hgo e s₁ ((reads_suffixes hk).2 ⟨rfl, rfl⟩)).bind hstep
    rw [suffixed_eq]
    simpa only [bind_assoc] using hall
  cases ha with
  | suffixed he =>
    refine hread he passes (by omega) ?_
    exact reads_stepped.2 (.inr ⟨by simp [stepOp_eq_none hrank], rfl, rfl⟩)
  | @step us k span increment e he hk target line =>
    obtain ⟨s₁, hfirst, hlast⟩ := passes.of_append
    obtain ⟨hcurrent, -, hlast⟩ := hlast.head
    cases hlast
    have hkind : s₁.kind = k := congrArg Token.kind hcurrent
    have hlower : rank s₁.kind < 12 := by
      rw [hkind]
      exact rank_of_stepOp hk
    refine hread he hfirst hlower (reads_stepped.2 (.inl ⟨increment, ?_, ?_, target, ?_, rfl⟩))
    · rw [hkind, hk]
    · unfold State.onSameLine
      rw [hcurrent, hfirst.previous_eq (Grammar.starts_suffixed.ne_nil he)]
      exact beq_iff_eq.2 line
    · rw [hcurrent]

/-! ## What comes in front of an operand -/

theorem signOp_eq_none {k : Kind} (hk : Grammar.opens k = true ∨ (stepOp k).isSome = true) :
    signOp k = none := by
  cases k with
  | symbol x => cases x <;> first | rfl | simp [Grammar.opens, stepOp] at hk
  | word w => cases w <;> first | rfl | simp [Grammar.opens, stepOp] at hk
  | _ => rfl

theorem stepOp_of_opens {k : Kind} (hk : Grammar.opens k = true) : stepOp k = none := by
  cases k with
  | symbol x => cases x <;> first | rfl | cases hk
  | _ => rfl

theorem Accepted.unary (h : Accepted n expr block E B) [expr.Grows] [block.Grows] [deeper.Grows]
    (inner : (nested deeper).Accepts n (Below rank 11 U)) {steps : Nat} {a : Expr} (hs : s.Ready n)
    (hsteps : ts.length ≤ steps) (ha : Prefixed E B U ts a) (hrank : rank s'.kind < 11)
    (passes : s.Passes ts s') : (unary expr block deeper steps).Reads s a s' := by
  induction ha generalizing s steps with
  | updated hu =>
    have hread := h.suffixed hs ⟨hu, hrank⟩ passes
    obtain ⟨t, us, rfl, ht⟩ := Grammar.starts_updated hu
    rw [← passes.kind] at ht
    cases steps with
    | zero => exact hread
    | succ steps =>
      unfold Parser.unary
      rw [reads_peek, signOp_eq_none (.inl ht), stepOp_of_opens ht]
      exact hread
  | @sign us k first op e hk hU =>
    obtain ⟨steps, rfl⟩ : ∃ m, steps = m + 1 := ⟨steps - 1, by simp at hsteps; omega⟩
    obtain ⟨hfirst, -, hlast⟩ := passes.head
    have hkind : s.kind = k := congrArg Token.kind hfirst
    unfold Parser.unary
    rw [reads_peek, hkind, hk]
    simp only
    rw [reads_take, hfirst]
    exact (inner hs.taken ⟨hU, hrank⟩ hlast).bind (reads_pure.2 ⟨rfl, rfl⟩)
  | @step us k first increment e hk target _ ih =>
    obtain ⟨steps, rfl⟩ : ∃ m, steps = m + 1 := ⟨steps - 1, by simp at hsteps; omega⟩
    obtain ⟨hfirst, -, hlast⟩ := passes.head
    have hkind : s.kind = k := congrArg Token.kind hfirst
    have hread := ih hs.taken (by simpa using hsteps) hlast
    unfold Parser.unary
    rw [reads_peek, hkind, signOp_eq_none (.inr (by rw [hk]; rfl)), hk]
    simp only
    rw [reads_take, hfirst]
    refine hread.bind (reads_checkTarget.2 ⟨target, reads_pure.2 ⟨rfl, rfl⟩⟩)

end Operands


/-! ## Operators -/

theorem joins_isSome {n : Nat} (h3 : 3 ≤ n) (h9 : n ≤ 9) (k : Kind) :
    (joins n k).isSome ↔ rank k = n := by
  -- the other tokens that hold an operand stand between no operands
  have hrank : (Grammar.between? k = none ∧ (rank k < 3 ∨ 9 < rank k)) ∨
      rank k = ((Grammar.between? k).map Prod.fst).getD 0 := by
    unfold rank
    split
    case h_14 => exact .inr rfl
    all_goals exact .inl ⟨rfl, by decide⟩
  unfold Grammar.joins
  cases hbetween : Grammar.between? k with
  | none =>
    rw [hbetween] at hrank
    simp at hrank ⊢
    omega
  | some p =>
    obtain ⟨m, join⟩ := p
    obtain ⟨hnone, -⟩ | hrank := hrank
    · cases hnone.symm.trans hbetween
    · rw [hrank, hbetween]
      simp

section Operators

variable {n : Nat} {expr power operand deeper : ExprParser} {block : BlockParser}
  {E P W : Phrase Expr} {B : Phrase (List Stmt)}

theorem accepts_power (accepted : operand.Accepts n (Below rank 11 P))
    (inner : (nested deeper).Accepts n (Below rank 10 W)) :
    (Parser.power operand deeper).Accepts n (Below rank 10 (Power P W)) := by
  intro s e s' ts hs ⟨he, hrank⟩ passes
  unfold Parser.power
  cases he with
  | one hP =>
    refine (accepted hs ⟨hP, by omega⟩ passes).bind ?_
    rw [eatsSymbol, reads_eats]
    refine .inr ⟨?_, reads_pure.2 ⟨rfl, rfl⟩⟩
    intro hk
    rw [hk] at hrank
    exact absurd hrank (by decide)
  | pow hP hW =>
    obtain ⟨s₁, hfirst, hlast⟩ := passes.of_append
    obtain ⟨hstars, -, hlast⟩ := hlast.head
    have hk : s₁.kind = .symbol .starStar := congrArg Token.kind hstars
    refine (accepted hs ⟨hP, by rw [hk]; decide⟩ hfirst).bind ?_
    rw [eatsSymbol, reads_eats]
    refine .inl ⟨hk, ?_⟩
    exact (inner (hs.passes hfirst).taken ⟨hW, hrank⟩ hlast).bind (reads_pure.2 ⟨rfl, rfl⟩)

theorem accepts_coalesced (accepted : power.Accepts n (Below rank 10 P)) :
    (coalesced power).Accepts n (Below rank 3 (Coalesced P)) :=
  .chain (joins_isSome (by decide) (by decide)) takes_coalesce (by decide)
    (.chain (joins_isSome (by decide) (by decide)) takes_or (by decide)
    (.chain (joins_isSome (by decide) (by decide)) takes_and (by decide)
    (.chain (joins_isSome (by decide) (by decide)) takes_equality (by decide)
    (.chain (joins_isSome (by decide) (by decide)) takes_comparison (by decide)
    (.chain (joins_isSome (by decide) (by decide)) takes_term (by decide)
    (.chain (joins_isSome (by decide) (by decide)) takes_factor (by decide) accepted))))))

/-- An operand without a question mark behind it, and a condition with its values. -/
theorem accepts_conditional (h : expr.Accepts n (Ended rank E))
    (accepted : power.Accepts n (Below rank 10 P)) :
    (conditional expr power).Accepts n (Below rank 2 (Coalesced P)) ∧
      (conditional expr power).Accepts n (Ended rank (Conditional E P)) := by
  have hone : (conditional expr power).Accepts n (Below rank 2 (Coalesced P)) := by
    intro s e s' ts hs h passes
    obtain ⟨he, hrank⟩ := h
    unfold Parser.conditional
    refine (accepts_coalesced accepted hs ⟨he, by omega⟩ passes).bind ?_
    rw [eatsSymbol, reads_eats]
    refine .inr ⟨?_, reads_pure.2 ⟨rfl, rfl⟩⟩
    intro hk
    rw [hk] at hrank
    exact absurd hrank (by decide)
  refine ⟨hone, ?_⟩
  intro s e s' ts hs hended passes
  obtain ⟨he, hrank⟩ := hended
  cases he with
  | one he => exact hone hs ⟨he, by omega⟩ passes
  | choice hc hy hn =>
    obtain ⟨s₁, hfirst, hlast⟩ := passes.of_append
    obtain ⟨hmark, -, hlast⟩ := hlast.head
    obtain ⟨s₂, hyes, hlast⟩ := hlast.of_append
    obtain ⟨hcolon, -, hno⟩ := hlast.head
    have hmark : s₁.kind = .symbol .question := congrArg Token.kind hmark
    have hcolon : s₂.kind = .symbol .colon := congrArg Token.kind hcolon
    have hs₁ := hs.passes hfirst
    unfold Parser.conditional
    refine (accepts_coalesced accepted hs ⟨hc, by rw [hmark]; decide⟩ hfirst).bind ?_
    rw [eatsSymbol, reads_eats]
    refine .inl ⟨hmark, ?_⟩
    refine (h hs₁.taken ⟨hy, by rw [hcolon]; rfl⟩ hyes).bind ?_
    rw [expectSymbol, reads_expect]
    refine ⟨hcolon, ?_⟩
    exact (h (hs₁.taken.passes hyes).taken ⟨hn, hrank⟩ hno).bind (reads_pure.2 ⟨rfl, rfl⟩)

/-- What is not taken for an arrow function where no arrow follows. -/
theorem arrowAhead_of_plain {s s' : State} {ts : List Token} (h : Grammar.Plain ts)
    (hk : s'.kind ≠ .symbol .arrow) (passes : s.Passes ts s') : arrowAhead s = false := by
  rw [Grammar.arrowAhead_eq, passes.rest]
  refine h _ ?_
  cases hrest : s'.rest with
  | nil => rfl
  | cons t rest =>
    refine decide_eq_false ?_
    rw [← current_of_rest hrest]
    exact hk

theorem assignOp_eq_none {k : Kind} (hk : rank k = 0) : ofSymbol assignOp k = none := by
  cases k with
  | symbol x => cases x <;> first | rfl | cases hk
  | _ => rfl

theorem rank_of_assignOp {x : Symbol} {op : AssignOp} (h : assignOp x = some op) :
    rank (.symbol x) < 2 := by
  cases x <;> first | decide | cases h

theorem Accepted.assignment (h : Accepted n expr block E B) [expr.Grows] [block.Grows]
    (accepted : power.Accepts n (Below rank 10 P)) (plain : Grammar.AllPlain P) :
    (assignment expr power block).Accepts n (Ended rank (Assignment E B P)) := by
  intro s e s' ts hs ⟨he, hrank⟩ passes
  have harrow : s'.kind ≠ .symbol .arrow := by
    intro hk
    rw [hk] at hrank
    cases hrank
  obtain ⟨hone, hconditional⟩ := accepts_conditional h.expr accepted
  rw [assignment_eq, reads_seesArrow]
  cases he with
  | arrow ha =>
    rw [Grammar.arrowAhead_eq, passes.rest, Grammar.arrowIn_arrow ha, if_pos rfl]
    exact h.arrow hs ⟨ha, hrank⟩ passes
  | conditional hc =>
    rw [arrowAhead_of_plain (Grammar.plain_conditional plain hc) harrow passes,
      if_neg Bool.false_ne_true]
    have hnone : ofSymbol assignOp s'.kind = none := assignOp_eq_none hrank
    exact (hconditional hs ⟨hc, hrank⟩ passes).bind (reads_assigned.2 (.inr ⟨hnone, rfl, rfl⟩))
  | @assign us vs x op span target value ht isTarget hop hv =>
    cases ht with
    | choice _ _ _ => cases isTarget
    | one hc =>
      have hx : x ≠ .arrow := by
        rintro rfl
        cases hop
      have hplain : Grammar.Plain (us ++ ⟨.symbol x, span⟩ :: vs) :=
        (Grammar.plain_coalesced plain hc).append (by simpa using hx)
      rw [arrowAhead_of_plain hplain harrow passes, if_neg Bool.false_ne_true]
      obtain ⟨s₁, hfirst, hlast⟩ := passes.of_append
      obtain ⟨hcurrent, -, hlast⟩ := hlast.head
      have hk : s₁.kind = .symbol x := congrArg Token.kind hcurrent
      have hvalue := h.expr (hs.passes hfirst).taken ⟨hv, hrank⟩ hlast
      refine (hone hs ⟨hc, by rw [hk]; exact rank_of_assignOp hop⟩ hfirst).bind ?_
      exact reads_assigned.2 (.inl ⟨x, op, value, hk, hop, isTarget, hvalue, rfl⟩)

end Operators

end Parser
end Script
end Workbook
