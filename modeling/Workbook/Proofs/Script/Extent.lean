/-
Where the trees of scripts lie.

Each function of the parser builds a tree between the token that was ahead and the token taken last, if
the functions it is given do (`orderly_assignment`, `orderly_statement`).  So do the parsers of all
levels (`orderly_level`).  What is skipped after a problem lies between two trees, and in none.
-/
import Workbook.Proofs.Parser.Extent
import Workbook.Proofs.Script.Derivation

namespace Workbook
namespace Script
namespace Parser

open Workbook.Parser
open Token (Kind Symbol)

variable {src : Source} {s : State} {expr power operand deeper : ExprParser} {block : BlockParser}
  {statement : StmtParser}

/-! ## Functions -/

theorem orderly_functionBody (hblock : Orderly src block) : Orderly src (functionBody block) :=
  fun s hs => hblock.around (f := (·.within 0)) (g := (·.within s.loops)) (on_functionBody block s)
    ⟨rfl, rfl, rfl⟩ (fun _ => ⟨rfl, rfl, rfl⟩) hs

theorem orderly_function (hblock : Orderly src block) : Orderly src (function block) := by
  intro s hs
  have hrest {s₁ : State} {n : Option Name} (h₁ : s.taken.Onward src s₁)
      (hn : Within src s.current.span.start s₁.previous.stop n) :
      Leads src s₁ (functionRest block s.current.span n)
        fun f s' => Within src s.current.span.start s'.previous.stop f := by
    refine (Orderly.parameters s₁ h₁.inOrder).bind fun names s₂ h₂ hnames => ?_
    refine (orderly_functionBody hblock s₂ h₂.inOrder).bind fun body s₃ h₃ hbody => ?_
    refine leads_since (.pure h₃.inOrder ?_)
    refine within_since hs h₃.inOrder (by grind) (by grind) rfl (.both (.both ?_ ?_) ?_)
    · exact hn.mono (by grind) (by grind)
    · exact hnames.mono (by grind) (by grind)
    · exact hbody.mono (by grind) (by grind)
  rw [function_eq]
  refine leads_here (leads_expect hs fun h₁ => leads_peek (.ite (fun _ => ?_) fun _ => ?_))
  · refine ((Orderly.name.map fun _ _ _ h => .some h) s.taken h₁.inOrder).bind fun n s₂ h₂ hn => ?_
    exact hrest h₂ (hn.mono (by grind) (Nat.le_refl _))
  · exact hrest h₁.inOrder.onward .none

theorem orderly_arrowParameters : Orderly src arrowParameters := by
  intro s hs
  refine leads_sees (.ite (fun _ => Orderly.parameters s hs) fun _ => ?_)
  exact (Orderly.name.map fun _ _ _ h => .cons h .nil) s hs

theorem orderly_arrowBody (hexpr : Orderly src expr) (hblock : Orderly src block) :
    Orderly src (arrowBody expr block) := by
  intro s hs
  refine leads_sees (.ite (fun _ => ?_) fun _ => ?_)
  · exact ((orderly_functionBody hblock).map (f := Body.block) fun _ _ _ h => h) s hs
  · exact (hexpr.map (f := Body.expr) fun _ _ _ h => h) s hs

theorem orderly_arrow (hexpr : Orderly src expr) (hblock : Orderly src block) :
    Orderly src (arrow expr block) := by
  intro s hs
  rw [arrow_eq]
  refine leads_here ((orderly_arrowParameters s hs).bind fun names s₁ h₁ hnames => ?_)
  refine leads_expect h₁.inOrder fun h₂ => ?_
  refine (orderly_arrowBody hexpr hblock _ h₂.inOrder).bind fun body s₃ h₃ hbody => ?_
  refine leads_since (.pure h₃.inOrder ?_)
  have hfunction : Within src s.current.span.start s₃.previous.stop
      (Function.mk none names body (s.current.span.merge s₃.previous)) := by
    refine within_since hs h₃.inOrder (by grind) (by grind) rfl (.both (.both Within.none ?_) ?_)
    · exact hnames.mono (by grind) (by grind)
    · exact hbody.mono (by grind) (by grind)
  exact hfunction.wrap rfl rfl

/-! ## Operands -/

/-- The value of an entry comes after its key. -/
theorem leads_entryValue (hexpr : Orderly src expr) (hblock : Orderly src block) {k : Name} {lo : Nat}
    (hs : s.InOrder src) (hlo : lo ≤ s.previous.start) (hk : Within src lo s.previous.stop k) :
    Leads src s (entryValue expr block k) fun e s' => Within src lo s'.previous.stop e := by
  refine leads_sees (.ite (fun _ => ?_) fun _ => ?_)
  · refine (Orderly.parameters s hs).bind fun names s₁ h₁ hnames => ?_
    refine (orderly_functionBody hblock s₁ h₁.inOrder).bind fun body s₂ h₂ hbody => ?_
    refine leads_since (.pure h₂.inOrder ?_)
    have hfunction : Within src lo s₂.previous.stop
        (Function.mk (some k) names (.block body) (k.span.merge s₂.previous)) := by
      refine .of_placed (.merge rfl hk.sound h₂.inOrder.previous (by grind) (by grind)
        (.both (.both (Within.some ?_) ?_) ?_))
      · exact hk.self.mono (Nat.le_refl _) (by grind)
      · exact hnames.mono (by grind) (by grind)
      · exact hbody.mono (by grind) (by grind)
    exact hfunction.wrap rfl rfl
  · refine leads_expect hs fun h₁ => (hexpr _ h₁.inOrder).mono fun e s₂ h₂ he => ?_
    exact he.mono (by grind) (Nat.le_refl _)

theorem orderly_entry (hexpr : Orderly src expr) (hblock : Orderly src block) :
    Orderly src (entry expr block) := by
  intro s hs
  refine leads_eats hs (fun h₁ => ?_) ?_
  · refine (hexpr _ h₁.inOrder).bind fun e s₂ h₂ he => .pure h₂.inOrder ?_
    exact he.mono (by grind) (by grind)
  · refine leads_shorthand fun short => leads_named takesName_key hs fun key h₁ => ?_
    have hkey := within_taken (b := (⟨key, s.current.span⟩ : Name)) hs rfl rfl
    refine .ite (fun _ => .pure h₁.inOrder ?_) fun _ => ?_
    · exact Placed.both hkey (within_taken (b := Expr.name s.current.span key) hs rfl rfl)
    · refine (leads_entryValue hexpr hblock h₁.inOrder (by grind) hkey).bind
        fun e s₂ h₂ he => .pure h₂.inOrder (Placed.both ?_ he)
      exact hkey.mono (Nat.le_refl _) h₂.last_le

theorem orderly_primary (hexpr : Orderly src expr) (hblock : Orderly src block) :
    Orderly src (primary expr block) := by
  intro s hs
  refine leads_peek ?_
  split
  · exact leads_leaf (fun _ => ⟨rfl, rfl⟩) hs
  · exact leads_leaf (fun _ => ⟨rfl, rfl⟩) hs
  · exact leads_enclosed (fun _ _ => ⟨rfl, rfl⟩) (hexpr.pieces _ _) hs
  · exact leads_leaf (fun _ => ⟨rfl, rfl⟩) hs
  · exact leads_leaf (fun _ => ⟨rfl, rfl⟩) hs
  · exact leads_leaf (fun _ => ⟨rfl, rfl⟩) hs
  · exact leads_leaf (fun _ => ⟨rfl, rfl⟩) hs
  · exact leads_leaf (fun _ => ⟨rfl, rfl⟩) hs
  · refine (orderly_function hblock s hs).bind fun f s₁ h₁ hf => .pure h₁.inOrder ?_
    exact hf.wrap rfl rfl
  · exact leads_enclosed (fun _ _ => ⟨rfl, rfl⟩) (hexpr.item.closedBy _) hs
  · exact leads_enclosed (fun _ _ => ⟨rfl, rfl⟩) ((orderly_entry hexpr hblock).closedBy _) hs
  · refine leads_take hs fun h₁ => (hexpr _ h₁.inOrder).bind fun inner s₂ h₂ hinner => ?_
    refine leads_expect h₂.inOrder fun h₃ => .pure h₃.inOrder ?_
    exact hinner.mono (by grind) (by grind)
  · exact leads_reject hs _

/-- The suffixes of an operand that lies before them. -/
theorem leads_suffixes (hexpr : Orderly src expr) (fuel : Nat) {s : State} {lo : Nat} {e : Expr}
    (hs : s.InOrder src) (he : Within src lo s.previous.stop e) :
    Leads src s (suffixes expr fuel e) fun e s' => Within src lo s'.previous.stop e := by
  induction fuel generalizing s e with
  | zero => exact .pure hs he
  | succ fuel ih =>
    refine leads_peek ?_
    split
    · refine leads_take hs fun h₁ => leads_named takesName_memberName h₁.inOrder fun key h₂ => ?_
      have hkey := within_taken (b := (⟨key, s.taken.current.span⟩ : Name)) h₁.inOrder rfl rfl
      refine ih h₂.inOrder (he.after h₁.inOrder.current (by grind) (by grind) rfl rfl ?_)
      exact hkey.mono (by grind) (by grind)
    · refine leads_take hs fun h₁ => (hexpr _ h₁.inOrder).bind fun key s₂ h₂ hkey => ?_
      refine leads_expect h₂.inOrder fun h₃ => leads_since (ih h₃.inOrder ?_)
      refine he.after h₃.inOrder.previous (by grind) (Nat.le_refl _) rfl rfl ?_
      exact hkey.mono (by grind) (by grind)
    · refine leads_take hs fun h₁ =>
        (hexpr.item.closedBy _ _ h₁.inOrder).bind fun arguments s₂ h₂ hall => ?_
      refine leads_since (ih h₂.inOrder ?_)
      refine he.after h₂.inOrder.previous (by grind) (Nat.le_refl _) rfl rfl ?_
      exact hall.mono (by grind) (by grind)
    · exact .pure hs he

/-- What cannot be written to is a problem at its own span. -/
theorem leads_checkTarget {α : Type} {f : Unit → Workbook.Parser α} {Q : α → State → Prop} {e : Expr}
    (hs : s.InOrder src) (he : src.Sound e.span)
    (h : ∀ s₁, s.Onward src s₁ → s₁.previous = s.previous → Leads src s₁ (f ()) Q) :
    Leads src s (checkTarget e >>= f) Q := by
  cases htarget : e.isTarget with
  | true =>
    have hon : (checkTarget e >>= f).on s = (f ()).on s := by
      unfold checkTarget
      rw [htarget]
      rfl
    exact (h s hs.onward rfl).of_on hon
  | false =>
    have hon : (checkTarget e >>= f).on s = (reportAt .badTarget e.span >>= f).on s := by
      unfold checkTarget
      rw [htarget]
      rfl
    exact (leads_reportAt hs he _ fun s₁ h₁ hprevious _ => h s₁ h₁ hprevious).of_on hon

theorem leads_stepped {lo : Nat} {e : Expr} (hs : s.InOrder src)
    (he : Within src lo s.previous.stop e) :
    Leads src s (stepped e) fun e s' => Within src lo s'.previous.stop e := by
  refine leads_get ?_
  split
  · refine .ite (fun _ => leads_take hs fun h₁ => ?_) fun _ => .pure hs he
    refine leads_checkTarget h₁.inOrder he.sound fun s₂ h₂ hprevious => ?_
    refine leads_since (.pure h₂.inOrder ?_)
    exact he.after h₂.inOrder.previous (by grind) (Nat.le_refl _) rfl (List.append_nil _).symm
      fun _ hn => by cases hn
  · exact .pure hs he

theorem orderly_suffixed (hexpr : Orderly src expr) (hblock : Orderly src block) :
    Orderly src (suffixed expr block) := by
  intro s hs
  rw [suffixed_eq]
  refine (orderly_primary hexpr hblock s hs).bind fun e s₁ h₁ he => leads_get ?_
  refine (leads_suffixes hexpr _ h₁.inOrder he).bind fun e s₂ h₂ he => ?_
  exact leads_stepped h₂.inOrder he

theorem orderly_unary (hexpr : Orderly src expr) (hblock : Orderly src block)
    (hdeeper : Orderly src deeper) (steps : Nat) : Orderly src (unary expr block deeper steps) := by
  induction steps with
  | zero => exact orderly_suffixed hexpr hblock
  | succ steps ih =>
    intro s hs
    refine leads_peek ?_
    split
    · refine leads_take hs fun h₁ => (hdeeper.nested _ h₁.inOrder).bind fun e s₂ h₂ he => ?_
      exact .pure h₂.inOrder (he.around hs.current (Nat.le_refl _) (by grind) rfl rfl)
    · refine leads_take hs fun h₁ => (ih _ h₁.inOrder).bind fun e s₂ h₂ he => ?_
      refine leads_checkTarget h₂.inOrder he.sound fun s₃ h₃ hprevious => ?_
      have hstop := he.mono (Nat.le_refl _) h₃.last_le
      exact .pure h₃.inOrder (hstop.around hs.current (Nat.le_refl _) (by grind) rfl rfl)
    · exact orderly_suffixed hexpr hblock s hs

/-! ## Operators -/

theorem joins_joined (op : BinaryOp) : Joins src (joined op) :=
  joins_merge (f := fun span => Expr.binary span op) fun _ _ _ => ⟨rfl, rfl⟩

theorem joins_joinedLogically (op : LogicalOp) : Joins src (joinedLogically op) :=
  joins_merge (f := fun span => Expr.logical span op) fun _ _ _ => ⟨rfl, rfl⟩

theorem orderly_power (hoperand : Orderly src operand) (hdeeper : Orderly src deeper) :
    Orderly src (Parser.power operand deeper) := by
  intro s hs
  refine (hoperand s hs).bind fun base s₁ h₁ hbase => ?_
  refine leads_eats h₁.inOrder (fun h₂ => ?_) (.pure h₁.inOrder hbase)
  refine (hdeeper.nested _ h₂.inOrder).bind fun e s₃ h₃ he => .pure h₃.inOrder ?_
  exact joins_joined .pow hbase (he.mono (by grind) (Nat.le_refl _))

theorem orderly_joinedBy (hoperand : Orderly src operand) (table : Symbol → Option BinaryOp) :
    Orderly src (joinedBy table operand) :=
  .operands (yieldsJoins_map table joins_joined) hoperand

theorem orderly_logicallyJoinedBy (hoperand : Orderly src operand) (sym : Symbol) (op : LogicalOp) :
    Orderly src (logicallyJoinedBy sym op operand) := by
  refine .operands (fun s hs => (leads_operator hs _).mono fun o s₁ _ ho join hjoin => ?_) hoperand
  obtain ⟨t, ht⟩ := ho join hjoin
  split at ht
  · cases ht
    exact joins_joinedLogically op
  · cases ht

theorem orderly_coalesced (hpower : Orderly src power) : Orderly src (coalesced power) := by
  have hsums := orderly_joinedBy (orderly_joinedBy hpower factorOp) termOp
  have hequalities := orderly_joinedBy (orderly_joinedBy hsums comparisonOp) equalityOp
  exact orderly_logicallyJoinedBy (orderly_logicallyJoinedBy
    (orderly_logicallyJoinedBy hequalities _ _) _ _) _ _

theorem orderly_conditional (hexpr : Orderly src expr) (hpower : Orderly src power) :
    Orderly src (conditional expr power) := by
  intro s hs
  refine (orderly_coalesced hpower s hs).bind fun condition s₁ h₁ hcondition => ?_
  refine leads_eats h₁.inOrder (fun h₂ => ?_) (.pure h₁.inOrder hcondition)
  refine (hexpr _ h₂.inOrder).bind fun yes s₃ h₃ hyes => leads_expect h₃.inOrder fun h₄ => ?_
  refine (hexpr _ h₄.inOrder).bind fun no s₅ h₅ hno => .pure h₅.inOrder (.of_placed ?_)
  refine .merge rfl hcondition.sound hno.sound (by grind) (by grind) (.both (.both ?_ ?_) ?_)
  · exact hcondition.self.mono (Nat.le_refl _) (by grind)
  · exact hyes.mono (by grind) (by grind)
  · exact hno.self.mono (by grind) (Nat.le_refl _)

theorem leads_assigned (hexpr : Orderly src expr) {lo : Nat} {target : Expr} (hs : s.InOrder src)
    (htarget : Within src lo s.previous.stop target) :
    Leads src s (assigned expr target) fun e s' => Within src lo s'.previous.stop e := by
  refine leads_peek ?_
  split
  · split
    · exact .pure hs htarget
    · refine leads_checkTarget hs htarget.sound fun s₁ h₁ _ => leads_take h₁.inOrder fun h₂ => ?_
      refine (hexpr _ h₂.inOrder).bind fun value s₃ h₃ hvalue => .pure h₃.inOrder ?_
      refine htarget.after hvalue.sound (by grind) (by grind) rfl rfl ?_
      exact hvalue.self.mono (by grind) (Nat.le_refl _)
  · exact .pure hs htarget

theorem orderly_assignment (hexpr : Orderly src expr) (hpower : Orderly src power)
    (hblock : Orderly src block) : Orderly src (assignment expr power block) := by
  intro s hs
  rw [assignment_eq]
  refine Leads.of_on (.ite (fun _ => orderly_arrow hexpr hblock s hs) fun _ => ?_) (on_seesArrow _ s)
  refine (orderly_conditional hexpr hpower s hs).bind fun target s₁ h₁ htarget => ?_
  exact leads_assigned hexpr h₁.inOrder htarget

/-! ## The end of a statement, and what is skipped -/

theorem leads_skip (fuel : Nat) (moved : Bool) (hs : s.InOrder src) :
    Leads src s (skip fuel moved) fun _ _ => True := by
  induction fuel generalizing s moved with
  | zero => exact .pure hs trivial
  | succ fuel ih =>
    refine leads_peek ?_
    split
    · exact .pure hs trivial
    · exact leads_take hs fun h₁ => .pure h₁.inOrder trivial
    · exact .ite (fun _ => .pure hs trivial) fun _ => leads_take hs fun h₁ => ih true h₁.inOrder

theorem orderly_statementOrSkip (hstatement : Orderly src statement) :
    Orderly src (statementOrSkip statement) := by
  intro s hs
  refine leads_get ((hstatement s hs).attempt.bind fun o s₁ h₁ ho => ?_)
  cases o with
  | some a => exact .pure h₁.inOrder (.some (ho a rfl))
  | none =>
    exact leads_get ((leads_skip _ _ h₁.inOrder).bind fun _ s₂ h₂ _ => .pure h₂.inOrder .none)

theorem leads_endStatement {α : Type} {f : Unit → Workbook.Parser α} {Q : α → State → Prop}
    (hs : s.InOrder src) (h : ∀ s₁, s.Onward src s₁ → Leads src s₁ (f ()) Q) :
    Leads src s (endStatement >>= f) Q := by
  refine Leads.bind (Q := fun _ _ => True) ?_ fun _ s₁ h₁ _ => h s₁ h₁
  refine leads_eats hs (fun h₁ => .pure h₁.inOrder trivial) (leads_get (.ite (fun _ => ?_) fun _ => .pure hs trivial))
  exact ⟨hs.reporting hs.current _, fun _ _ => trivial⟩

/-! ## Blocks -/

theorem orderly_statements (hstatement : Orderly src statement) (fuel : Nat) :
    Orderly src (statements statement fuel) := by
  induction fuel with
  | zero => exact fun s hs => .pure hs .nil
  | succ fuel ih =>
    intro s hs
    refine leads_sees (leads_sees (leads_get (.ite (fun _ => .pure hs .nil) fun _ => ?_)))
    refine (orderly_statementOrSkip hstatement s hs).bind fun first s₁ h₁ hfirst => ?_
    refine (ih s₁ h₁.inOrder).bind fun rest s₂ h₂ hrest => .pure h₂.inOrder (.append ?_ ?_)
    · exact hfirst.mono (by grind) (by grind)
    · exact hrest.mono (by grind) (by grind)

/-- Statements in braces take a token. -/
theorem leads_braced (hstatement : Orderly src statement) (hs : s.InOrder src) :
    Leads src s (braced statement) fun body s' =>
      Within src s.current.span.start s'.previous.stop body ∧
        s.current.span.start ≤ s'.previous.start ∧ s.current.span.stop ≤ s'.previous.stop := by
  refine leads_expect hs fun h₁ => leads_get ?_
  refine (orderly_statements hstatement _ _ h₁.inOrder).bind fun body s₂ h₂ hbody => ?_
  refine leads_expect h₂.inOrder fun h₃ => .pure h₃.inOrder ⟨?_, by grind, by grind⟩
  exact hbody.mono (by grind) (by grind)

theorem orderly_braced (hstatement : Orderly src statement) : Orderly src (braced statement) :=
  fun _ hs => (leads_braced hstatement hs).mono fun _ _ _ h => h.1

/-! ## Statements -/

theorem orderly_declaration (hexpr : Orderly src expr) (how : Declarator) :
    Orderly src (declaration how expr) := by
  intro s hs
  refine leads_take hs fun h₁ => leads_named takesName_name h₁.inOrder fun key h₂ => ?_
  have hkey := within_taken (b := (⟨key, s.taken.current.span⟩ : Name)) h₁.inOrder rfl rfl
  refine leads_eats h₂.inOrder (fun h₃ => ?_) ?_
  · refine (hexpr _ h₃.inOrder).bind fun value s₄ h₄ hvalue => leads_since (.pure h₄.inOrder ?_)
    refine within_since hs h₄.inOrder (by grind) (by grind) rfl (.both ?_ (Within.some ?_))
    · exact hkey.mono (by grind) (by grind)
    · exact hvalue.mono (by grind) (by grind)
  · rw [if_neg Bool.false_ne_true]
    -- a problem that is reported moves nothing
    have hrest {s₃ : State} (h₃ : s.taken.taken.Onward src s₃) :
        Leads src s₃ (do
            return Stmt.declaration (← since s.current.span) how ⟨key, s.taken.current.span⟩ none)
          fun d s' => Within src s.current.span.start s'.previous.stop d := by
      refine leads_since (.pure h₃.inOrder ?_)
      refine within_since hs h₃.inOrder (by grind) (by grind) rfl (.both ?_ Within.none)
      exact hkey.mono (by grind) (by grind)
    refine .ite (fun _ => leads_report h₂.inOrder _ fun s₃ h₃ _ _ => ?_) fun _ => ?_
    · exact hrest h₃
    · exact hrest h₂.inOrder.onward

theorem orderly_condition (hexpr : Orderly src expr) : Orderly src (condition expr) := by
  intro s hs
  refine leads_expect hs fun h₁ => (hexpr _ h₁.inOrder).bind fun e s₂ h₂ he => ?_
  refine leads_expect h₂.inOrder fun h₃ => .pure h₃.inOrder ?_
  exact he.mono (by grind) (by grind)

theorem orderly_loopBody (hstatement : Orderly src statement) : Orderly src (loopBody statement) :=
  fun s hs => hstatement.around (f := fun s => s.within (s.loops + 1))
    (g := fun s => s.within (s.loops - 1)) (on_loopBody statement s) ⟨rfl, rfl, rfl⟩
    (fun _ => ⟨rfl, rfl, rfl⟩) hs

theorem orderly_branch (hexpr : Orderly src expr) (hstatement : Orderly src statement) :
    Orderly src (branch expr statement) := by
  intro s hs
  refine leads_take hs fun h₁ => (orderly_condition hexpr _ h₁.inOrder).bind fun c s₂ h₂ hc => ?_
  refine (hstatement s₂ h₂.inOrder).bind fun yes s₃ h₃ hyes => leads_eats h₃.inOrder (fun h₄ => ?_) ?_
  · refine ((hstatement.map fun _ _ _ h => .some h) _ h₄.inOrder).bind fun no s₅ h₅ hno => ?_
    refine leads_since (.pure h₅.inOrder ?_)
    refine within_since hs h₅.inOrder (by grind) (by grind) rfl (.both (.both ?_ ?_) ?_)
    · exact hc.mono (by grind) (by grind)
    · exact hyes.mono (by grind) (by grind)
    · exact hno.mono (by grind) (by grind)
  · show Leads src s₃ (do return Stmt.branch (← since s.current.span) c yes none : StmtParser) _
    refine leads_since (.pure h₃.inOrder ?_)
    refine within_since hs h₃.inOrder (by grind) (by grind) rfl (.both (.both ?_ ?_) Within.none)
    · exact hc.mono (by grind) (by grind)
    · exact hyes.mono (by grind) (by grind)

theorem orderly_whileLoop (hexpr : Orderly src expr) (hstatement : Orderly src statement) :
    Orderly src (whileLoop expr statement) := by
  intro s hs
  refine leads_take hs fun h₁ => (orderly_condition hexpr _ h₁.inOrder).bind fun c s₂ h₂ hc => ?_
  refine (orderly_loopBody hstatement s₂ h₂.inOrder).bind fun body s₃ h₃ hbody => ?_
  refine leads_since (.pure h₃.inOrder ?_)
  refine within_since hs h₃.inOrder (by grind) (by grind) rfl (.both ?_ ?_)
  · exact hc.mono (by grind) (by grind)
  · exact hbody.mono (by grind) (by grind)

theorem orderly_upTo (hexpr : Orderly src expr) (close : Symbol) : Orderly src (upTo close expr) := by
  intro s hs
  refine leads_sees (.ite (fun _ => .pure hs .none) fun _ => ?_)
  exact (hexpr s hs).bind fun e s₁ h₁ he => .pure h₁.inOrder (.some he)

theorem orderly_loopStart (hexpr : Orderly src expr) : Orderly src (loopStart expr) := by
  intro s hs
  refine leads_peek ?_
  split
  · refine (orderly_declaration hexpr _ s hs).bind fun d s₁ h₁ hd => .pure h₁.inOrder (.some hd)
  · refine (orderly_upTo hexpr _ s hs).bind fun o s₁ h₁ ho => .pure h₁.inOrder ?_
    cases o with
    | none => exact .none
    | some e => exact .some ((Within.some_iff.1 ho).wrap rfl rfl)

theorem orderly_forLoop (hexpr : Orderly src expr) (hstatement : Orderly src statement) :
    Orderly src (forLoop expr statement) := by
  intro s hs
  refine leads_take hs fun h₁ => leads_expect h₁.inOrder fun h₂ => leads_get ?_
  split
  · refine leads_take h₂.inOrder fun h₃ => leads_named takesName_name h₃.inOrder fun key h₄ => ?_
    have hkey := within_taken (b := (⟨key, s.taken.taken.taken.current.span⟩ : Name)) h₃.inOrder rfl rfl
    refine leads_expect h₄.inOrder fun h₅ => (hexpr _ h₅.inOrder).bind fun items s₆ h₆ hitems => ?_
    refine leads_expect h₆.inOrder fun h₇ => ?_
    refine (orderly_loopBody hstatement _ h₇.inOrder).bind fun body s₈ h₈ hbody => ?_
    refine leads_since (.pure h₈.inOrder ?_)
    refine within_since hs h₈.inOrder (by grind) (by grind) rfl (.both (.both ?_ ?_) ?_)
    · exact hkey.mono (by grind) (by grind)
    · exact hitems.mono (by grind) (by grind)
    · exact hbody.mono (by grind) (by grind)
  · refine (orderly_loopStart hexpr _ h₂.inOrder).bind fun start s₃ h₃ hstart => ?_
    refine leads_expect h₃.inOrder fun h₄ => ?_
    refine (orderly_upTo hexpr _ _ h₄.inOrder).bind fun c s₅ h₅ hc => ?_
    refine leads_expect h₅.inOrder fun h₆ => ?_
    refine (orderly_upTo hexpr _ _ h₆.inOrder).bind fun step s₇ h₇ hstep => ?_
    refine leads_expect h₇.inOrder fun h₈ => ?_
    refine (orderly_loopBody hstatement _ h₈.inOrder).bind fun body s₉ h₉ hbody => ?_
    refine leads_since (.pure h₉.inOrder ?_)
    refine within_since hs h₉.inOrder (by grind) (by grind) rfl (.both (.both (.both ?_ ?_) ?_) ?_)
    · exact hstart.mono (by grind) (by grind)
    · exact hc.mono (by grind) (by grind)
    · exact hstep.mono (by grind) (by grind)
    · exact hbody.mono (by grind) (by grind)

theorem orderly_returning (hexpr : Orderly src expr) : Orderly src (returning expr) := by
  intro s hs
  refine leads_take hs fun h₁ => leads_get ?_
  extract_lets bare rest
  have hrest {value : Option Expr} {s₂ : State} (h₂ : s.taken.Onward src s₂)
      (hvalue : Within src s.current.span.start s₂.previous.stop value) :
      Leads src s₂ (rest value) fun r s' => Within src s.current.span.start s'.previous.stop r := by
    refine leads_since (leads_endStatement h₂.inOrder fun s₃ h₃ => .pure h₃.inOrder ?_)
    have hreturns : Within src s.current.span.start s₂.previous.stop
        (Stmt.returns (s.current.span.merge s₂.previous) value) :=
      within_since hs h₂.inOrder (by grind) (by grind) rfl hvalue
    exact hreturns.mono (Nat.le_refl _) h₃.last_le
  refine .ite (fun _ => hrest h₁.inOrder.onward .none) fun _ => ?_
  refine ((hexpr.map fun _ _ _ h => .some h) _ h₁.inOrder).bind fun value s₂ h₂ hvalue => hrest h₂ ?_
  exact hvalue.mono (by grind) (Nat.le_refl _)

theorem orderly_jump (word : String) {f : Span → Stmt}
    (hf : ∀ span, (node (f span)).span = span ∧ (node (f span)).children = []) : Orderly src (jump word f) := by
  intro s hs
  have hplaced := within_taken hs (hf s.current.span).1 (hf s.current.span).2
  refine leads_take hs fun h₁ => leads_get (.ite (fun _ => ?_) fun _ => ?_)
  · refine leads_reportAt h₁.inOrder hs.current _ fun s₂ h₂ _ _ => leads_endStatement h₂.inOrder
      fun s₃ h₃ => .pure h₃.inOrder (hplaced.mono (Nat.le_refl _) (by grind))
  · exact leads_endStatement h₁.inOrder
      fun s₂ h₂ => .pure h₂.inOrder (hplaced.mono (Nat.le_refl _) (by grind))

theorem orderly_throwing (hexpr : Orderly src expr) : Orderly src (throwing expr) := by
  intro s hs
  refine leads_take hs fun h₁ => (hexpr _ h₁.inOrder).bind fun value s₂ h₂ hvalue => ?_
  refine leads_endStatement h₂.inOrder fun s₃ h₃ => .pure h₃.inOrder ?_
  have hstop := hvalue.mono (Nat.le_refl _) h₃.last_le
  exact hstop.around hs.current (Nat.le_refl _) (by grind) rfl rfl

theorem orderly_declared (hexpr : Orderly src expr) (how : Declarator) :
    Orderly src (declared how expr) := by
  intro s hs
  refine (orderly_declaration hexpr how s hs).bind fun d s₁ h₁ hd => ?_
  exact leads_endStatement h₁.inOrder
    fun s₂ h₂ => .pure h₂.inOrder (hd.mono (Nat.le_refl _) h₂.last_le)

theorem orderly_expressionStatement (hexpr : Orderly src expr) :
    Orderly src (expressionStatement expr) := by
  intro s hs
  refine (hexpr s hs).bind fun e s₁ h₁ he => ?_
  exact leads_endStatement h₁.inOrder
    fun s₂ h₂ => .pure h₂.inOrder ((he.mono (Nat.le_refl _) h₂.last_le).wrap rfl rfl)

theorem orderly_statement (hexpr : Orderly src expr) (fuel : Nat) :
    Orderly src (Parser.statement expr fuel) := by
  induction fuel with
  | zero => exact fun s hs => leads_peek (leads_reject hs _)
  | succ fuel ih =>
    intro s hs
    refine leads_get ?_
    split
    · exact orderly_declared hexpr _ s hs
    · exact orderly_declared hexpr _ s hs
    · refine .ite (fun _ => ?_) fun _ => orderly_expressionStatement hexpr s hs
      refine (orderly_function (orderly_braced ih) s hs).bind fun f s₁ h₁ hf => ?_
      exact .pure h₁.inOrder (hf.wrap rfl rfl)
    · exact orderly_branch hexpr ih s hs
    · exact orderly_whileLoop hexpr ih s hs
    · exact orderly_forLoop hexpr ih s hs
    · exact orderly_returning hexpr s hs
    · exact orderly_jump _ (fun _ => ⟨rfl, rfl⟩) s hs
    · exact orderly_jump _ (fun _ => ⟨rfl, rfl⟩) s hs
    · exact orderly_throwing hexpr s hs
    · refine leads_here ((leads_braced ih hs).bind fun body s₁ h₁ hbody => ?_)
      obtain ⟨hbody, hstart, hstop⟩ := hbody
      exact leads_since (.pure h₁.inOrder (within_since hs h₁.inOrder hstart hstop rfl hbody))
    · exact leads_leaf (fun _ => ⟨rfl, rfl⟩) hs
    · exact orderly_expressionStatement hexpr s hs

theorem orderly_block (hexpr : Orderly src expr) : Orderly src (Parser.block expr) :=
  fun s hs => leads_get (orderly_braced (orderly_statement hexpr _) s hs)

/-! ## Levels and scripts -/

theorem orderly_over {powerBelow operandBelow : ExprParser} (hexpr : Orderly src expr)
    (hpower : Orderly src powerBelow) (hoperand : Orderly src operandBelow) :
    Orderly src (Level.over expr powerBelow operandBelow).expr ∧
      Orderly src (Level.over expr powerBelow operandBelow).power ∧
      Orderly src (Level.over expr powerBelow operandBelow).operand := by
  have hunary : Orderly src (Level.over expr powerBelow operandBelow).operand :=
    fun s hs => leads_get (orderly_unary hexpr (orderly_block hexpr) hoperand _ s hs)
  exact ⟨hexpr, orderly_power hunary hpower, hunary⟩

theorem orderly_level (n : Nat) : Orderly src (level n).expr ∧ Orderly src (level n).power ∧
    Orderly src (level n).operand := by
  induction n with
  | zero =>
    have htooDeep : Orderly src (reject (.tooDeep maxNesting) : ExprParser) :=
      fun s hs => leads_reject hs _
    exact orderly_over htooDeep htooDeep htooDeep
  | succ n ih =>
    obtain ⟨hexpr, hpower, hoperand⟩ := ih
    exact orderly_over (orderly_assignment hexpr hpower (orderly_block hexpr)).nested hpower hoperand

theorem orderly_topLevel (hstatement : Orderly src statement) (fuel : Nat) :
    Orderly src (topLevel statement fuel) := by
  induction fuel with
  | zero => exact fun s hs => .pure hs .nil
  | succ fuel ih =>
    intro s hs
    refine leads_sees (leads_get (.ite (fun _ => .pure hs .nil) fun _ => leads_sees (.ite ?_ ?_)))
    · refine fun _ => leads_report hs _ fun s₁ h₁ _ _ => leads_take h₁.inOrder fun h₂ => ?_
      exact (ih _ h₂.inOrder).mono fun body s₃ h₃ hbody => hbody.mono (by grind) (Nat.le_refl _)
    · refine fun _ => (orderly_statementOrSkip hstatement s hs).bind fun first s₁ h₁ hfirst => ?_
      refine (ih s₁ h₁.inOrder).bind fun rest s₂ h₂ hrest => .pure h₂.inOrder (.append ?_ ?_)
      · exact hfirst.mono (by grind) (by grind)
      · exact hrest.mono (by grind) (by grind)

/-- A whole script is well placed. -/
theorem leads_whole (hs : s.InOrder src) :
    Leads src s whole fun p _ => (Node.script p).Nested src := by
  refine leads_here (leads_get ?_)
  show Leads src s (topLevel (Parser.statement expression s.rest.length) s.rest.length >>= _) _
  have hstatement : Orderly src (Parser.statement expression s.rest.length) :=
    orderly_statement (orderly_level maxNesting).1 _
  refine (orderly_topLevel hstatement _ s hs).bind fun body s₁ h₁ hbody => ?_
  refine leads_since (.pure h₁.inOrder ?_)
  have hplaced : Placed src 0 (max s.current.span.stop s₁.previous.stop)
      (.script ⟨body, s.current.span.merge s₁.previous⟩) :=
    .merge rfl hs.current h₁.inOrder.previous (by omega) (by omega) hbody
  exact hplaced.nested

end Parser
end Script
end Workbook
