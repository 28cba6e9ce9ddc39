/-
What is printed is what the grammar writes.
-/
import Mathlib.Tactic.IntervalCases
import Workbook.Proofs.Script.Completeness
import Workbook.Proofs.Script.Printing

namespace Workbook
namespace Script

open Token (Kind Symbol)
open Workbook.Parser (Phrase Chain Listed Items Holes Named Parameters nameText? textPiece lastSpan)

/-! ## Tokens that fit -/

namespace Print

/-- Tokens of these kinds on one line, where the levels that they open can be opened. -/
structure Fits (a : Print) (n line : Nat) (ts : List Token) : Prop where
  levels : a.levels ≤ n
  kinds : ts.map Token.kind = a.kinds
  line : ∀ t ∈ ts, t.span.line = line

namespace Fits

variable {a b : Print} {k : Kind} {n line : Nat} {ts : List Token}

theorem append (h : (a ++ b).Fits n line ts) :
    ∃ us vs, ts = us ++ vs ∧ a.Fits n line us ∧ b.Fits n line vs := by
  obtain ⟨us, vs, rfl, hus, hvs⟩ := List.map_eq_append_iff.1 h.kinds
  have hlevels : max a.levels b.levels ≤ n := h.levels
  refine ⟨us, vs, rfl, ⟨by omega, hus, fun t ht => ?_⟩, ⟨by omega, hvs, fun t ht => ?_⟩⟩
  · exact h.line t (List.mem_append_left _ ht)
  · exact h.line t (List.mem_append_right _ ht)

theorem empty (h : Print.empty.Fits n line ts) : ts = [] :=
  List.map_eq_nil_iff.1 h.kinds

theorem token (h : (token k).Fits n line ts) : ∃ span, span.line = line ∧ ts = [⟨k, span⟩] := by
  obtain ⟨⟨k', span⟩, us, rfl, hk, hus⟩ := List.map_eq_cons_iff.1 h.kinds
  obtain rfl := List.map_eq_nil_iff.1 hus
  have hk : k' = k := hk
  subst hk
  exact ⟨span, h.line _ List.mem_cons_self, rfl⟩

theorem cons (h : (Print.token k ++ a).Fits n line ts) :
    ∃ span us, span.line = line ∧ ts = ⟨k, span⟩ :: us ∧ a.Fits n line us := by
  obtain ⟨us, vs, rfl, hus, hvs⟩ := h.append
  obtain ⟨span, hline, rfl⟩ := hus.token
  exact ⟨span, vs, hline, rfl, hvs⟩

theorem concat (h : (a ++ Print.token k).Fits n line ts) :
    ∃ us span, span.line = line ∧ ts = us ++ [⟨k, span⟩] ∧ a.Fits n line us := by
  obtain ⟨us, vs, rfl, hus, hvs⟩ := h.append
  obtain ⟨span, hline, rfl⟩ := hvs.token
  exact ⟨us, span, hline, rfl, hus⟩

theorem inside (h : a.inside.Fits n line ts) : ∃ m, n = m + 1 ∧ a.Fits m line ts := by
  have hlevels : a.levels + 1 ≤ n := h.levels
  exact ⟨n - 1, by omega, by omega, h.kinds, h.line⟩

theorem parenthesized (h : a.parenthesized.Fits n line ts) : ∃ first last us,
    ts = ⟨.symbol .leftParen, first⟩ :: (us ++ [⟨.symbol .rightParen, last⟩]) ∧
      a.inside.Fits n line us := by
  obtain ⟨first, us, -, rfl, hrest⟩ := h.cons
  obtain ⟨vs, last, -, rfl, hvs⟩ := hrest.concat
  exact ⟨first, last, vs, rfl, hvs⟩

/-- The last token is on the line as well. -/
theorem line_lastSpan (h : a.Fits n line ts) (hts : ts ≠ []) : (lastSpan ts).line = line := by
  unfold lastSpan
  rw [List.getLast?_eq_some_getLast hts]
  exact h.line _ (List.getLast_mem hts)

/-- Parts with commas between them are a list of what the parts are. -/
theorem listed {α β : Type} {P : Phrase α} {print : α → Print} {plain : α → β} {as : List α}
    (h : ∀ a ∈ as, ∀ ⦃ts⦄, (print a).Fits n line ts → ∃ a', P ts a' ∧ plain a' = plain a)
    (fits : (commas (as.map print)).Fits n line ts) :
    ∃ as', Listed P ts as' ∧ as'.map plain = as.map plain := by
  induction as generalizing ts with
  | nil =>
    obtain rfl := fits.empty
    exact ⟨[], .nil, rfl⟩
  | cons a as ih =>
    cases as with
    | nil =>
      obtain ⟨a', ha, hplain⟩ := h a List.mem_cons_self fits
      exact ⟨[a'], .one ha, by rw [List.map_singleton, hplain]; rfl⟩
    | cons b as =>
      obtain ⟨us, vs, rfl, hus, hvs⟩ := fits.append
      obtain ⟨comma, ws, -, rfl, hws⟩ := hvs.cons
      obtain ⟨a', ha, hplain⟩ := h a List.mem_cons_self hus
      obtain ⟨as', has, hplains⟩ := ih (fun c hc => h c (List.mem_cons_of_mem _ hc)) hws
      exact ⟨a' :: as', .cons ha has, by rw [List.map_cons, hplain, hplains]; rfl⟩

theorem name {x : Name} (h : (Print.name x).Fits n line ts) :
    ∃ span, span.line = line ∧ ts = [⟨.name x.text, span⟩] :=
  h.token

theorem parameters {ps : List Name} (h : (Print.parameters ps).Fits n line ts) :
    ∃ ps', Parameters ts ps' ∧ ps'.map Name.unplaced = ps.map Name.unplaced := by
  obtain ⟨first, us, -, rfl, hrest⟩ := h.cons
  obtain ⟨vs, last, -, rfl, hvs⟩ := hrest.concat
  have hname (p : Name) (_ : p ∈ ps) ⦃ts : List Token⦄ (h : (Print.name p).Fits n line ts) :
      ∃ p', Named nameText? ts p' ∧ p'.unplaced = p.unplaced := by
    obtain ⟨span, -, rfl⟩ := h.name
    exact ⟨⟨p.text, span⟩, .mk rfl, rfl⟩
  obtain ⟨ps', hlisted, hplain⟩ := hvs.listed hname
  exact ⟨ps', .mk hlisted, hplain⟩

end Fits
end Print

/-! ## Places -/

namespace Grammar

/-- Powers with operators between them, up to the `k`-th rank from the tightest. -/
def chains (P : Phrase Expr) : Nat → Phrase Expr
  | 0 => P
  | k + 1 => Chain (joins (9 - k)) (chains P k)

/-- What may stand at a place of a level that asks for expressions which hold their operands so
tightly. -/
def place (n p : Nat) : Phrase Expr :=
  let here := level false n
  let block := Block here.expr false
  if p ≤ 1 then Assignment here.expr block here.power
  else if p = 2 then Conditional here.expr here.power
  else if p ≤ 10 then chains here.power (10 - p)
  else if p = 11 then here.operand
  else if p = 12 then Updated here.expr block
  else if p = 13 then Suffixed here.expr block
  else Primary here.expr block

variable {n p q : Nat} {ts : List Token} {e : Expr}

theorem power_of_operand (h : (level false n).operand ts e) : (level false n).power ts e := by
  cases n <;> exact .one h

theorem operand_of_updated (h : Updated (level false n).expr (Block (level false n).expr false) ts e) :
    (level false n).operand ts e := by
  cases n <;> exact .updated h

theorem operand_step {k : Kind} {first : Span} {increment : Bool}
    (hk : Parser.stepOp k = some increment) (target : e.isTarget = true)
    (h : (level false n).operand ts e) :
    (level false n).operand (⟨k, first⟩ :: ts) (.update (first.merge e.span) increment true e) := by
  cases n <;> exact .step hk target h

theorem place_chain (h3 : 3 ≤ p) (h9 : p ≤ 9) : place n p = Chain (joins p) (place n (p + 1)) := by
  interval_cases p <;> rfl

theorem place_step (hp : p < 14) (h : place n (p + 1) ts e) : place n p ts e := by
  rcases Nat.lt_or_ge p 3 with hlow | hlow
  · interval_cases p
    · exact h
    · exact .conditional h
    · exact .one h
  · rcases Nat.lt_or_ge p 10 with hmid | hmid
    · rw [place_chain hlow (by omega)]
      exact .one h
    · interval_cases p
      · exact power_of_operand h
      · exact operand_of_updated h
      · exact .suffixed h
      · exact .primary h

/-- What holds its operands more tightly may stand at a place that asks for less. -/
theorem place_mono (hpq : p ≤ q) (hq : q ≤ 14) (h : place n q ts e) : place n p ts e := by
  induction hpq with
  | refl => exact h
  | step _ ih => exact ih (by omega) (place_step (by omega) h)

end Grammar

open Grammar (place place_mono place_chain)

/-! ## Expressions that are written -/

variable {style : Style}

namespace Expr

theorem isTarget_unplaced (e : Expr) : e.unplaced.isTarget = e.isTarget := by
  cases e <;> rfl

theorem prec_bounds (e : Expr) : 1 ≤ e.prec style ∧ e.prec style ≤ 14 := by
  unfold prec
  split
  all_goals first
    | exact ⟨by decide, by decide⟩
    | (rename_i op _ _; cases op <;> exact ⟨by decide, by decide⟩)
    | (split <;> exact ⟨by decide, by decide⟩)

theorem prec_pos (e : Expr) : 1 ≤ e.prec style :=
  e.prec_bounds.1

theorem prec_le (e : Expr) : e.prec style ≤ 14 :=
  e.prec_bounds.2

/-- Tokens that print the expression write it, up to where its parts stand. -/
def Prints (style : Style) (e : Expr) : Prop :=
  ∀ ⦃n line ts⦄, (e.print style).Fits n line ts →
    ∃ e', place n (e.prec style) ts e' ∧ e'.unplaced = e.unplaced

namespace Prints

variable {e : Expr} {n line p : Nat} {ts : List Token}

theorem inside (h : e.Prints style) (fits : (e.print style).inside.Fits n line ts) :
    ∃ e', (Grammar.level false n).expr ts e' ∧ e'.unplaced = e.unplaced := by
  obtain ⟨m, rfl, inner⟩ := fits.inside
  obtain ⟨e', he, hplain⟩ := h inner
  exact ⟨e', place_mono e.prec_pos e.prec_le he, hplain⟩

/-- What is in parentheses may stand anywhere. -/
theorem parenthesized (h : e.Prints style) (hp : p ≤ 14)
    (fits : (e.print style).parenthesized.Fits n line ts) :
    ∃ e', place n p ts e' ∧ e'.unplaced = e.unplaced := by
  obtain ⟨first, last, us, rfl, inner⟩ := fits.parenthesized
  obtain ⟨e', he, hplain⟩ := h.inside inner
  exact ⟨e', place_mono hp (Nat.le_refl 14) (Grammar.Primary.parenthesized he), hplain⟩

theorem within (h : e.Prints style) (hp : p ≤ 14)
    (fits : ((e.print style).within p (e.prec style)).Fits n line ts) :
    ∃ e', place n p ts e' ∧ e'.unplaced = e.unplaced := by
  unfold Print.within at fits
  split at fits
  · rename_i hprec
    obtain ⟨e', he, hplain⟩ := h fits
    exact ⟨e', place_mono hprec e.prec_le he, hplain⟩
  · exact h.parenthesized hp fits

/-- A target needs no parentheses, and what is written is one as well. -/
theorem target (h : e.Prints style) (ht : e.isTarget = true) (hp : p ≤ 14)
    (fits : ((e.print style).within p (e.prec style)).Fits n line ts) :
    ∃ e', place n p ts e' ∧ e'.isTarget = true ∧ e'.unplaced = e.unplaced := by
  obtain ⟨e', he, hplain⟩ := h.within hp fits
  exact ⟨e', he, by rw [← isTarget_unplaced, hplain, isTarget_unplaced, ht], hplain⟩

end Prints

/-! ### Literals -/

section Literals

variable {span : Span}

theorem prints_undefined : (undefined span).Prints style := by
  intro n line ts fits
  obtain ⟨span', -, rfl⟩ := fits.token
  exact ⟨.undefined span', Grammar.Primary.undefinedWord, rfl⟩

theorem prints_null : (null span).Prints style := by
  intro n line ts fits
  obtain ⟨span', -, rfl⟩ := fits.token
  exact ⟨.null span', Grammar.Primary.nullWord, rfl⟩

theorem prints_boolean (b : Bool) : (boolean span b).Prints style := by
  intro n line ts fits
  obtain ⟨span', -, rfl⟩ := fits.token
  cases b with
  | true => exact ⟨.boolean span' true, Grammar.Primary.trueWord, rfl⟩
  | false => exact ⟨.boolean span' false, Grammar.Primary.falseWord, rfl⟩

theorem prints_number (x : Float) : (number span x).Prints style := by
  intro n line ts fits
  obtain ⟨span', -, rfl⟩ := fits.token
  exact ⟨.number span' x, Grammar.Primary.number, rfl⟩

theorem prints_string (s : String) : (string span s).Prints style := by
  intro n line ts fits
  obtain ⟨span', -, rfl⟩ := fits.token
  exact ⟨.string span' s, Grammar.Primary.string, rfl⟩

theorem prints_name (s : String) : (name span s).Prints style := by
  intro n line ts fits
  obtain ⟨span', -, rfl⟩ := fits.token
  exact ⟨.name span' s, Grammar.Primary.name, rfl⟩

end Literals

/-! ### Operators -/

section Operators

variable {span : Span} {a b c : Expr}

theorem prints_unary (ha : a.Prints style) (op : UnaryOp) : (unary span op a).Prints style := by
  intro n line ts fits
  obtain ⟨first, us, -, rfl, operand⟩ := fits.cons
  obtain ⟨m, rfl, inner⟩ := operand.inside
  obtain ⟨a', hU, hplain⟩ := ha.within (by decide) inner
  have hop : Parser.signOp op.kind = some op := by cases op <;> rfl
  exact ⟨_, Grammar.Prefixed.sign hop hU, by rw [Expr.unplaced, hplain]; rfl⟩

theorem prints_update (ha : a.Prints style) (ht : a.isTarget = true) (increment first : Bool) :
    (update span increment first a).Prints style := by
  intro n line ts fits
  have hstep : Parser.stepOp (.symbol (stepMark increment)) = some increment := by
    cases increment <;> rfl
  unfold print at fits
  cases first with
  | true =>
    obtain ⟨sign, us, -, rfl, target⟩ := fits.cons
    obtain ⟨a', hU, htarget, hplain⟩ := ha.target ht (by decide) target
    exact ⟨_, Grammar.operand_step hstep htarget hU, by rw [Expr.unplaced, hplain]; rfl⟩
  | false =>
    obtain ⟨us, sign, hline, rfl, target⟩ := fits.concat
    obtain ⟨a', hS, htarget, hplain⟩ := ha.target ht (by decide) target
    have hS : Grammar.Suffixed _ _ us a' := hS
    have hlast := target.line_lastSpan (Grammar.starts_suffixed.ne_nil hS)
    exact ⟨_, Grammar.Updated.step hS hstep htarget (hline.trans hlast.symm), by rw [Expr.unplaced, hplain]; rfl⟩

/-- Two operands of an operator that groups to the left. -/
theorem joined_of_fits (ha : a.Prints style) (hb : b.Prints style) {p n line : Nat} {k : Kind}
    {join : Expr → Expr → Expr} {ts : List Token} (h3 : 3 ≤ p) (h9 : p ≤ 9)
    (hjoin : Grammar.joins p k = some join)
    (fits : ((a.print style).within p (a.prec style) ++
      (Print.token k ++ (b.print style).within (p + 1) (b.prec style))).Fits n line ts) :
    ∃ a' b', place n p ts (join a' b') ∧ a'.unplaced = a.unplaced ∧ b'.unplaced = b.unplaced := by
  obtain ⟨us, vs, rfl, hus, hvs⟩ := fits.append
  obtain ⟨sign, ws, -, rfl, hws⟩ := hvs.cons
  obtain ⟨a', hl, hplain⟩ := ha.within (by omega) hus
  obtain ⟨b', hr, hplain'⟩ := hb.within (by omega) hws
  refine ⟨a', b', ?_, hplain, hplain'⟩
  rw [place_chain h3 h9] at hl ⊢
  exact .more hl hjoin hr

theorem prints_binary (ha : a.Prints style) (hb : b.Prints style) (op : BinaryOp) :
    (binary span op a b).Prints style := by
  intro n line ts fits
  unfold print at fits
  split at fits
  · rename_i hop
    subst hop
    obtain ⟨us, vs, rfl, hus, hvs⟩ := fits.append
    obtain ⟨stars, ws, -, rfl, hws⟩ := hvs.cons
    obtain ⟨m, rfl, inner⟩ := hws.inside
    obtain ⟨a', hP, hplain⟩ := ha.within (by decide) hus
    obtain ⟨b', hW, hplain'⟩ := hb.within (by decide) inner
    exact ⟨_, Grammar.Power.pow hP hW, by rw [Parser.joined, Expr.unplaced, hplain, hplain']; rfl⟩
  · rename_i hop
    have hprec : 3 ≤ op.prec ∧ op.prec ≤ 9 := by cases op <;> first | decide | exact absurd rfl hop
    have hjoin : Grammar.joins op.prec op.kind = some (Parser.joined op) := by
      cases op <;> first | rfl | exact absurd rfl hop
    obtain ⟨a', b', hall, hplain, hplain'⟩ := joined_of_fits ha hb hprec.1 hprec.2 hjoin fits
    exact ⟨_, hall, by rw [Parser.joined, Expr.unplaced, hplain, hplain']; rfl⟩

theorem prints_logical (ha : a.Prints style) (hb : b.Prints style) (op : LogicalOp) :
    (logical span op a b).Prints style := by
  intro n line ts fits
  have hprec : 3 ≤ op.prec ∧ op.prec ≤ 9 := by cases op <;> decide
  have hjoin : Grammar.joins op.prec op.kind = some (Parser.joinedLogically op) := by
    cases op <;> rfl
  obtain ⟨a', b', hall, hplain, hplain'⟩ := joined_of_fits ha hb hprec.1 hprec.2 hjoin fits
  exact ⟨_, hall, by rw [Parser.joinedLogically, Expr.unplaced, hplain, hplain']; rfl⟩

theorem prints_conditional (ha : a.Prints style) (hb : b.Prints style) (hc : c.Prints style) :
    (conditional span a b c).Prints style := by
  intro n line ts fits
  obtain ⟨us, vs, rfl, hus, hvs⟩ := fits.append
  obtain ⟨mark, ws, -, rfl, hws⟩ := hvs.cons
  obtain ⟨ys, xs, rfl, hys, hxs⟩ := hws.append
  obtain ⟨colon, ns, -, rfl, hns⟩ := hxs.cons
  obtain ⟨a', hcondition, hplain⟩ := ha.within (by decide) hus
  obtain ⟨b', hyes, hplain'⟩ := hb.inside hys
  obtain ⟨c', hno, hplain''⟩ := hc.inside hns
  exact ⟨_, Grammar.Conditional.choice hcondition hyes hno, by rw [Expr.unplaced, hplain, hplain', hplain'']; rfl⟩

theorem prints_assign (ha : a.Prints style) (hb : b.Prints style) (ht : a.isTarget = true)
    (op : AssignOp) : (assign span op a b).Prints style := by
  intro n line ts fits
  obtain ⟨us, vs, rfl, hus, hvs⟩ := fits.append
  obtain ⟨sign, ws, -, rfl, hws⟩ := hvs.cons
  obtain ⟨a', hC, htarget, hplain⟩ := ha.target ht (by decide) hus
  obtain ⟨b', hvalue, hplain'⟩ := hb.inside hws
  have hop : Parser.assignOp op.mark = some op := by cases op <;> rfl
  exact ⟨_, Grammar.Assignment.assign hC htarget hop hvalue, by rw [Expr.unplaced, hplain, hplain']; rfl⟩

theorem prints_member (ha : a.Prints style) (key : Name) : (member span a key).Prints style := by
  intro n line ts fits
  obtain ⟨us, vs, rfl, hus, hvs⟩ := fits.append
  obtain ⟨dot, ws, -, rfl, hws⟩ := hvs.cons
  obtain ⟨span', -, rfl⟩ := hws.name
  obtain ⟨a', hS, hplain⟩ := ha.within (by decide) hus
  exact ⟨_, Grammar.Suffixed.member hS rfl, by rw [Expr.unplaced, hplain]; rfl⟩

theorem prints_index (ha : a.Prints style) (hb : b.Prints style) : (index span a b).Prints style := by
  intro n line ts fits
  obtain ⟨us, vs, rfl, hus, hvs⟩ := fits.append
  obtain ⟨first, ws, -, rfl, hws⟩ := hvs.cons
  obtain ⟨ks, last, -, rfl, hks⟩ := hws.concat
  obtain ⟨a', hS, hplain⟩ := ha.within (by decide) hus
  obtain ⟨b', hkey, hplain'⟩ := hb.inside hks
  exact ⟨_, Grammar.Suffixed.index hS hkey, by rw [Expr.unplaced, hplain, hplain']; rfl⟩

end Operators

/-! ### Lists -/

section Lists

variable {span : Span} {n line : Nat} {ts : List Token}

theorem items_of_fits {items : List (Item Expr)} (h : ∀ i ∈ items, i.content.Prints style)
    (fits : (Print.commas (printItems style items)).Fits n line ts) :
    ∃ items', Listed (Items (Grammar.level false n).expr) ts items' ∧
      unplacedItems items' = unplacedItems items := by
  rw [printItems_eq] at fits
  have hitem (i : Item Expr) (hi : i ∈ items) ⦃ts : List Token⦄
      (fits : (printItem style i).Fits n line ts) :
      ∃ i', Items (Grammar.level false n).expr ts i' ∧ unplacedItem i' = unplacedItem i := by
    have hi := h i hi
    cases i with
    | one e =>
      obtain ⟨e', he, hplain⟩ := hi.inside fits
      exact ⟨.one e', .one he, congrArg Item.one hplain⟩
    | spread e =>
      obtain ⟨dots, us, -, rfl, hus⟩ := fits.cons
      obtain ⟨e', he, hplain⟩ := hi.inside hus
      exact ⟨.spread e', .spread he, congrArg Item.spread hplain⟩
  obtain ⟨items', hlisted, hplain⟩ := fits.listed hitem
  refine ⟨items', hlisted, ?_⟩
  rw [unplacedItems_eq, unplacedItems_eq]
  exact hplain

theorem prints_array {items : List (Item Expr)} (h : ∀ i ∈ items, i.content.Prints style) :
    (array span items).Prints style := by
  intro n line ts fits
  obtain ⟨first, us, -, rfl, hus⟩ := fits.cons
  obtain ⟨vs, last, -, rfl, hvs⟩ := hus.concat
  obtain ⟨items', hlisted, hplain⟩ := items_of_fits h hvs
  exact ⟨_, Grammar.Primary.array hlisted, by rw [Expr.unplaced, hplain]; rfl⟩

theorem prints_call {callee : Expr} {arguments : List (Item Expr)} (hc : callee.Prints style)
    (h : ∀ i ∈ arguments, i.content.Prints style) : (call span callee arguments).Prints style := by
  intro n line ts fits
  obtain ⟨us, vs, rfl, hus, hvs⟩ := fits.append
  obtain ⟨first, ws, -, rfl, hws⟩ := hvs.cons
  obtain ⟨as, last, -, rfl, has⟩ := hws.concat
  obtain ⟨callee', hS, hplain⟩ := hc.within (by decide) hus
  obtain ⟨arguments', hlisted, hplain'⟩ := items_of_fits h has
  exact ⟨_, Grammar.Suffixed.call hS hlisted, by rw [Expr.unplaced, hplain, hplain']; rfl⟩

end Lists

end Expr

end Script
end Workbook
