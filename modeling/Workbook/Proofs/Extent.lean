/-
Where tokens, problems and trees lie in a source text (`spans_are_sound`).

Every span lies between two boundaries of characters, in order, and has the line and the column of the
first one.  The span of a node contains the spans of its children.  This holds of every text, with
problems or without.

Each function of the parser of formulas builds a tree between the token that was ahead and the token
taken last, if the functions it is given do (`Formula.Parser.orderly_disjunction`,
`Formula.Parser.orderly_unary`).  So do the parsers of all levels (`Formula.Parser.orderly_level`).
-/
import Workbook.Formula.Parser
import Workbook.Proofs.Parser.Extent
import Workbook.Proofs.Script.Extent

namespace Workbook
namespace Formula
namespace Parser

open Workbook.Parser
open Token (Symbol)

variable {src : Source} {expr deeper operand : ExprParser}

/-! ## Operands -/

theorem orderly_branch (hexpr : Orderly src expr) : Orderly src (branch expr) := by
  intro s hs
  refine leads_take hs fun h₁ => (hexpr _ h₁.inOrder).bind fun condition s₂ h₂ hcondition => ?_
  refine leads_expect h₂.inOrder fun h₃ => (hexpr _ h₃.inOrder).bind fun yes s₄ h₄ hyes => ?_
  refine leads_expect h₄.inOrder fun h₅ => (hexpr _ h₅.inOrder).bind fun no s₆ h₆ hno => ?_
  refine .pure h₆.inOrder (hno.before hs.current (by grind) (by grind) rfl rfl (.both ?_ ?_))
  · exact hcondition.mono (by grind) (by grind)
  · exact hyes.mono (by grind) (by grind)

theorem orderly_binding (hexpr : Orderly src expr) : Orderly src (binding expr) := by
  intro s hs
  refine leads_take hs fun h₁ => leads_named takesName_name h₁.inOrder fun key h₂ => ?_
  have hkey := within_taken (b := (⟨key, s.taken.current.span⟩ : Name)) h₁.inOrder rfl rfl
  refine leads_expect h₂.inOrder fun h₃ => (hexpr _ h₃.inOrder).bind fun value s₄ h₄ hvalue => ?_
  refine leads_expect h₄.inOrder fun h₅ => (hexpr _ h₅.inOrder).bind fun body s₆ h₆ hbody => ?_
  refine .pure h₆.inOrder (hbody.before hs.current (by grind) (by grind) rfl rfl (.both ?_ ?_))
  · exact hkey.mono (by grind) (by grind)
  · exact hvalue.mono (by grind) (by grind)

theorem orderly_lambda (hexpr : Orderly src expr) : Orderly src (lambda expr) := by
  intro s hs
  refine leads_take hs fun h₁ => (Orderly.parameters _ h₁.inOrder).bind fun names s₂ h₂ hnames => ?_
  refine leads_expect h₂.inOrder fun h₃ => (hexpr _ h₃.inOrder).bind fun body s₄ h₄ hbody => ?_
  refine .pure h₄.inOrder (hbody.before hs.current (by grind) (by grind) rfl rfl ?_)
  exact hnames.mono (by grind) (by grind)

theorem orderly_entry (hexpr : Orderly src expr) : Orderly src (entry expr) := by
  intro s hs
  refine leads_eats hs (fun h₁ => ?_) ?_
  · refine (hexpr _ h₁.inOrder).bind fun e s₂ h₂ he => .pure h₂.inOrder ?_
    exact he.mono (by grind) (by grind)
  · refine leads_shorthand fun short => leads_named takesName_key hs fun key h₁ => ?_
    have hkey := within_taken (b := (⟨key, s.current.span⟩ : Name)) hs rfl rfl
    refine .ite (fun _ => .pure h₁.inOrder ?_) fun _ => ?_
    · exact Placed.both hkey (within_taken (b := Expr.name s.current.span key) hs rfl rfl)
    · refine leads_expect h₁.inOrder fun h₂ => (hexpr _ h₂.inOrder).bind fun e s₃ h₃ he => ?_
      refine .pure h₃.inOrder (Placed.both (hkey.mono (by grind) (by grind)) ?_)
      exact he.mono (by grind) (by grind)

theorem orderly_primary (hexpr : Orderly src expr) : Orderly src (primary expr) := by
  intro s hs
  refine leads_peek ?_
  split
  · refine leads_leaf (fun span => ?_) hs
    rename_i n _
    cases n <;> exact ⟨rfl, rfl⟩
  · exact leads_leaf (fun _ => ⟨rfl, rfl⟩) hs
  · exact leads_enclosed (fun _ _ => ⟨rfl, rfl⟩) (hexpr.pieces _ _) hs
  · exact leads_leaf (fun _ => ⟨rfl, rfl⟩) hs
  · exact leads_leaf (fun _ => ⟨rfl, rfl⟩) hs
  · exact leads_leaf (fun _ => ⟨rfl, rfl⟩) hs
  · exact leads_leaf (fun _ => ⟨rfl, rfl⟩) hs
  · exact orderly_branch hexpr s hs
  · exact orderly_binding hexpr s hs
  · exact orderly_lambda hexpr s hs
  · exact leads_enclosed (fun _ _ => ⟨rfl, rfl⟩) (hexpr.item.closedBy _) hs
  · exact leads_enclosed (fun _ _ => ⟨rfl, rfl⟩) ((orderly_entry hexpr).closedBy _) hs
  · refine leads_take hs fun h₁ => (hexpr _ h₁.inOrder).bind fun inner s₂ h₂ hinner => ?_
    refine leads_expect h₂.inOrder fun h₃ => leads_since (.pure h₃.inOrder ?_)
    refine within_since hs h₃.inOrder (by grind) (by grind) rfl ?_
    exact hinner.mono (by grind) (by grind)
  · exact leads_reject hs _

/-- The suffixes of an operand that lies before them. -/
theorem leads_suffixes (hexpr : Orderly src expr) (fuel : Nat) {s : State} {lo : Nat} {e : Expr}
    (hs : s.InOrder src) (he : Within src lo s.previous.stop e) :
    Leads src s (suffixes expr fuel e) fun e s' => Within src lo s'.previous.stop e := by
  induction fuel generalizing s e with
  | zero => exact .pure hs he
  | succ fuel ih =>
    refine leads_peek ?_
    split
    · refine leads_take hs fun h₁ => leads_named takesName_memberName h₁.inOrder fun key h₂ => ?_
      have hkey := within_taken (b := (⟨key, s.taken.current.span⟩ : Name)) h₁.inOrder rfl rfl
      refine ih h₂.inOrder (he.after h₁.inOrder.current (by grind) (by grind) rfl rfl ?_)
      exact hkey.mono (by grind) (by grind)
    · refine leads_take hs fun h₁ => (hexpr _ h₁.inOrder).bind fun key s₂ h₂ hkey => ?_
      refine leads_expect h₂.inOrder fun h₃ => leads_since (ih h₃.inOrder ?_)
      refine he.after h₃.inOrder.previous (by grind) (Nat.le_refl _) rfl rfl ?_
      exact hkey.mono (by grind) (by grind)
    · refine leads_take hs fun h₁ =>
        (hexpr.closedBy _ _ h₁.inOrder).bind fun arguments s₂ h₂ hall => ?_
      refine leads_since (ih h₂.inOrder ?_)
      refine he.after h₂.inOrder.previous (by grind) (Nat.le_refl _) rfl rfl ?_
      exact hall.mono (by grind) (by grind)
    · exact .pure hs he

theorem orderly_suffixed (hexpr : Orderly src expr) : Orderly src (suffixed expr) := by
  intro s hs
  refine (orderly_primary hexpr s hs).bind fun e s₁ h₁ he => leads_get ?_
  exact leads_suffixes hexpr _ h₁.inOrder he

theorem orderly_unary (hexpr : Orderly src expr) (hdeeper : Orderly src deeper) :
    Orderly src (unary expr deeper) := by
  intro s hs
  have hsigned (op : UnaryOp) : Leads src s (unary.signed deeper op)
      fun e s' => Within src s.current.span.start s'.previous.stop e := by
    refine leads_take hs fun h₁ => (hdeeper.nested _ h₁.inOrder).bind fun e s₂ h₂ he => ?_
    exact .pure h₂.inOrder (he.around hs.current (Nat.le_refl _) (by grind) rfl rfl)
  refine leads_peek ?_
  split
  · exact hsigned .not
  · exact hsigned .neg
  · exact orderly_suffixed hexpr s hs

/-! ## Operators -/

theorem joins_joined (op : BinaryOp) : Joins src (joined op) :=
  joins_merge (f := fun span => Expr.binary span op) fun _ _ _ => ⟨rfl, rfl⟩

theorem yieldsJoins_joining (table : Symbol → Option BinaryOp) : YieldsJoins src (joining table) :=
  yieldsJoins_map table joins_joined

theorem yieldsJoins_wordOp (w : Token.Keyword) (op : BinaryOp) : YieldsJoins src (wordOp w op) := by
  intro s hs
  refine leads_eats hs (fun h₁ => .pure h₁.inOrder fun join hjoin => ?_) (.pure hs fun _ h => by cases h)
  cases hjoin
  exact joins_joined op

theorem yieldsJoins_coalescing : YieldsJoins src coalescing := by
  intro s hs
  refine leads_eats hs (fun h₁ => .pure h₁.inOrder fun join hjoin => ?_) (.pure hs fun _ h => by cases h)
  cases hjoin
  exact joins_merge (f := Expr.coalesce) fun _ _ _ => ⟨rfl, rfl⟩

theorem yieldsJoins_chained : YieldsJoins src chained := by
  intro s hs
  have hjoining (s₁ : State) (h₁ : s₁.InOrder src) := yieldsJoins_joining comparisonOp s₁ h₁
  refine leads_peek ?_
  split
  · exact .ite (fun _ => leads_report hs _ fun s₁ h₁ _ _ => hjoining s₁ h₁.inOrder)
      fun _ => hjoining s hs
  · exact hjoining s hs

theorem orderly_sum (hoperand : Orderly src operand) : Orderly src (sum operand) :=
  .operands (yieldsJoins_joining _) (.operands (yieldsJoins_joining _) hoperand)

theorem orderly_comparison (hoperand : Orderly src operand) : Orderly src (comparison operand) := by
  intro s hs
  refine (orderly_sum hoperand s hs).bind fun left s₁ h₁ hleft => ?_
  refine (yieldsJoins_joining comparisonOp s₁ h₁.inOrder).bind fun o s₂ h₂ hjoin => ?_
  cases o with
  | none => exact .pure h₂.inOrder (hleft.mono (Nat.le_refl _) h₂.last_le)
  | some join =>
    refine (orderly_sum hoperand s₂ h₂.inOrder).bind fun right s₃ h₃ hright => leads_get ?_
    refine leads_chain yieldsJoins_chained (orderly_sum hoperand) _ h₃.inOrder ?_
    exact hjoin join rfl (hleft.mono (Nat.le_refl _) h₂.last_le)
      (hright.mono h₂.inOrder.stop_le (Nat.le_refl _))

theorem orderly_disjunction (hoperand : Orderly src operand) : Orderly src (disjunction operand) :=
  .operands (yieldsJoins_wordOp _ _) (.operands (yieldsJoins_wordOp _ _)
    (.operands yieldsJoins_coalescing (orderly_comparison hoperand)))

/-! ## Levels -/

theorem orderly_level (n : Nat) : Orderly src (level n).expr ∧ Orderly src (level n).operand := by
  induction n with
  | zero =>
    have htooDeep : Orderly src (reject (.tooDeep maxNesting) : ExprParser) :=
      fun s hs => leads_reject hs _
    exact ⟨htooDeep, orderly_unary htooDeep htooDeep⟩
  | succ n ih =>
    have hexpr : Orderly src (level (n + 1)).expr := (orderly_disjunction ih.2).nested
    exact ⟨hexpr, orderly_unary hexpr ih.2⟩

/-- A whole formula is well placed.  An empty one lies at the end, which is not taken. -/
theorem leads_whole {s : State} (hs : s.InOrder src) :
    Leads src s whole fun e _ => (Node.formula e).Nested src := by
  refine leads_sees (.ite (fun _ => leads_here (.pure hs ?_)) fun _ => ?_)
  · exact .intro hs.current (fun _ hc => by cases hc) fun _ hc => by cases hc
  · refine ((orderly_level maxNesting).1 s hs).bind fun e s₁ h₁ he => ?_
    have hnested := he.placed.nested
    refine leads_sees (.ite (fun _ => ?_) fun _ => .pure h₁.inOrder hnested)
    exact leads_peek (leads_report h₁.inOrder _ fun s₂ h₂ _ _ => .pure h₂.inOrder hnested)

end Parser
end Formula

/-! ## Texts -/

namespace Parser

/-- The tokens of a text are in order before any of them is taken. -/
theorem inOrder_start (l : Language) (s : Source) : (start (Token.lex l s).1).InOrder s where
  previous := s.reaches_start.sound_point
  ahead := Token.ordered_lex l s
  problems := Problems.sound_empty

end Parser

/-- The problem is at a sound span, and on a line of the text. -/
def Problem.IsPlaced (s : Source) (p : Problem) : Prop :=
  s.Sound p.span ∧ s.line? p.span.line = some (p.sourceLine s)

theorem Problems.Sound.isPlaced {s : Source} {ps : Problems} (h : ps.Sound s) :
    ∀ p ∈ ps.kept, p.IsPlaced s :=
  fun p hp => ⟨h p hp, (h p hp).line?_eq⟩

/-- Every node of the tree has a sound span, which contains the spans of its children. -/
def Node.IsPlaced (s : Source) (n : Node) : Prop :=
  ∀ m : Node, m.IsIn n → s.Sound m.span ∧
    ∀ c ∈ m.children, m.span.start ≤ c.span.start ∧ c.span.stop ≤ m.span.stop

theorem Node.Nested.isPlaced {s : Source} {n : Node} (h : n.Nested s) : n.IsPlaced s :=
  fun _ hm => ⟨(h.isIn hm).sound, fun _ hc => (h.isIn hm).inside hc⟩

theorem Formula.leads_parse (s : Source) : Parser.Leads s (Parser.start (Token.lex .formula s).1)
    Formula.Parser.whole fun e _ => (Node.formula e).Nested s :=
  Formula.Parser.leads_whole (Parser.inOrder_start .formula s)

theorem Script.leads_parse (s : Source) : Parser.Leads s (Parser.start (Token.lex .script s).1)
    Script.Parser.whole fun p _ => (Node.script p).Nested s :=
  Script.Parser.leads_whole (Parser.inOrder_start .script s)

/-- The tokens of a text in both languages are at sound spans: these lie between two boundaries of
characters, in order, and have the line and the column of the first one.  So are the problems with the
characters and with the trees, and their lines are lines of the text.  Every node of the tree of a text
has a sound span, which contains the spans of its children, whether there are problems or not.

The line and the column of a boundary are those that the table of lines gives. -/
theorem spans_are_sound (s : Source) :
    (∀ l, ∀ t ∈ (Token.lex l s).1, s.Sound t.span) ∧
    (∀ l, ∀ p ∈ (Token.lex l s).2.kept, p.IsPlaced s) ∧
    (∀ p ∈ (Formula.parse s).2.kept, p.IsPlaced s) ∧
    (∀ p ∈ (Script.parse s).2.kept, p.IsPlaced s) ∧
    (∀ e, (Formula.parse s).1 = some e → (Node.formula e).IsPlaced s) ∧
    (∀ p, (Script.parse s).1 = some p → (Node.script p).IsPlaced s) ∧
    (∀ offset, String.Pos.Raw.IsValid s.text ⟨offset⟩ → ∃ before after,
      s.lines[(s.position offset).line - 1]? = some (before ++ after) ∧
        (s.position offset).line ≠ 0 ∧ (s.position offset).column = before.length + 1 ∧
        s.lineStart (s.position offset).line + (String.ofList before).utf8ByteSize = offset) := by
  have hformula := Formula.leads_parse s
  have hscript := Script.leads_parse s
  refine ⟨fun l t ht => (Token.ordered_lex l s).sound ht, fun l => (Token.sound_lex l s).isPlaced,
    ?_, ?_, fun e he => (hformula.result e he).isPlaced, fun p hp => (hscript.result p hp).isPlaced,
    fun offset => Source.position_in_lines⟩
  · exact ((Token.sound_lex .formula s).append hformula.onward.inOrder.problems).isPlaced
  · exact ((Token.sound_lex .script s).append hscript.onward.inOrder.problems).isPlaced

end Workbook
