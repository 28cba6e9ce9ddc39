/-
How deep expressions are nested, and how many loops are around.

Both counts are raised before a part is read and lowered after it, also if there is no result.  So every
function of the parsers leaves them as it found them (`Routine.kept`), which `Grows` says of each one.
A count is lowered in two places only, after it has been raised and what is in between has kept it.
So it is never zero then: were zero lowered to anything else, nothing would change
(`nestedBy_eq`, `loopBodyBy_eq`).

A statement that cannot be read therefore leaves no trace but its problems: what comes after it is read
at the same depth and in as many loops as it would be without it (`eq_of_on_statementOrSkip`,
`Begins.kept`).
-/
import Workbook.Proofs.Parser.Account

namespace Workbook
namespace Parser

open Token (Kind Keyword Symbol)
open Script.Parser (StmtParser)

/-! ## All functions of the parsers -/

/-- The functions that parse a language, those that take its operators, and those that go on after a
problem. -/
inductive Routine : Language → ∀ {α : Type}, Parser α → Prop
  | part {l : Language} {α : Type} {p : Parser α} (h : Part l p) : Routine l p
  | take {l : Language} : Routine l take
  | eats {l : Language} (k : Kind) : Routine l (eats k)
  | reportAt {l : Language} (cause : Problem.Cause) (span : Span) : Routine l (reportAt cause span)
  | report {l : Language} (cause : Problem.Cause) : Routine l (report cause)
  | reject {l : Language} {α : Type} (cause : Problem.Cause) : Routine l (reject cause : Parser α)
  | attempt {l : Language} {α : Type} {p : Parser α} (h : Routine l p) : Routine l (attempt p)
  | nested {l : Language} {α : Type} {p : Parser α} (h : Routine l p) : Routine l (nested p)
  | operator {l : Language} {β : Type} (table : Symbol → Option β) : Routine l (operator table)
  | chain {l : Language} {α : Type} {next : Parser (Option (α → α → α))} {operand : Parser α}
    (fuel : Nat) (left : α) (hn : Routine l next) (h : Routine l operand) :
    Routine l (chain next operand fuel left)
  | operands {l : Language} {α : Type} {next : Parser (Option (α → α → α))} {operand : Parser α}
    (hn : Routine l next) (h : Routine l operand) : Routine l (operands next operand)
  -- formulas
  | joining (table : Symbol → Option Formula.BinaryOp) :
    Routine .formula (Formula.Parser.joining table)
  | chained : Routine .formula Formula.Parser.chained
  | coalescing : Routine .formula Formula.Parser.coalescing
  | wordOp (w : Keyword) (op : Formula.BinaryOp) : Routine .formula (Formula.Parser.wordOp w op)
  -- scripts
  | seesArrow : Routine .script Script.Parser.seesArrow
  | checkTarget (e : Script.Expr) : Routine .script (Script.Parser.checkTarget e)
  | coalesced {power : Script.Parser.ExprParser} (h : Routine .script power) :
    Routine .script (Script.Parser.coalesced power)
  | loopBody {statement : StmtParser} (h : Routine .script statement) :
    Routine .script (Script.Parser.loopBody statement)
  | skip (fuel : Nat) (moved : Bool) : Routine .script (Script.Parser.skip fuel moved)
  | statementOrSkip {statement : StmtParser} (h : Routine .script statement) :
    Routine .script (Script.Parser.statementOrSkip statement)

namespace Routine

variable {l : Language} {α : Type} {p : Parser α}

theorem grows (h : Routine l p) : p.Grows := by
  induction h with
  | part h => exact h.grows
  | _ => infer_instance

/-- Both counts are left as they were, with a result or without. -/
theorem kept (h : Routine l p) (s : State) :
    (p.on s).2.depth = s.depth ∧ (p.on s).2.loops = s.loops :=
  ⟨h.grows.depth s, h.grows.loops s⟩

end Routine

/-! ## Lowering a count -/

section Lowering

variable {α : Type} {p : Parser α} {statement : StmtParser} {lower : Nat → Nat}

theorem ext_on {p q : Parser α} (h : ∀ s, p.on s = q.on s) : p = q :=
  funext h

/-- What zero would be lowered to makes no difference. -/
theorem nestedBy_eq (hp : p.Grows) (hlower : ∀ n, lower (n + 1) = n) : nestedBy lower p = nested p := by
  refine ext_on fun s => ?_
  have hdepth : (p.on s.deeper).2.depth = s.depth + 1 := hp.depth s.deeper
  rw [on_nestedBy, on_nested, State.shallower, hdepth, hlower, Nat.add_sub_cancel]

theorem loopBodyBy_eq (hs : statement.Grows) (hlower : ∀ n, lower (n + 1) = n) :
    Script.Parser.loopBodyBy lower statement = Script.Parser.loopBody statement := by
  refine ext_on fun s => ?_
  have hloops : (statement.on (s.within (s.loops + 1))).2.loops = s.loops + 1 :=
    hs.loops (s.within (s.loops + 1))
  rw [Script.Parser.on_loopBodyBy, Script.Parser.on_loopBody, hloops, hlower, Nat.add_sub_cancel]

end Lowering

/-! ## After a problem -/

section Statements

open Script.Parser

variable {statement : StmtParser} {s t : State}

/-- After a statement, read or skipped, the parser is somewhere else and may have found problems, and
that is all. -/
theorem eq_of_on_statementOrSkip (h : Routine .script statement)
    (hon : ((statementOrSkip statement).on s).2 = t) :
    t = { s with rest := t.rest, previous := t.previous, problems := t.problems } := by
  obtain ⟨hdepth, hloops⟩ := h.statementOrSkip.kept s
  rw [hon] at hdepth hloops
  obtain ⟨rest, previous, problems, depth, loops⟩ := t
  subst hdepth hloops
  rfl

/-- Where a statement is read. -/
structure Going (s : State) : Prop where
  inside : s.kind ≠ .symbol .rightBrace
  ahead : s.kind ≠ .endOfInput
  going : s.problems.isFull = false

theorem on_statements_going (h : Going s) (fuel : Nat) : (statements statement (fuel + 1)).on s =
    (andRest statement (statements statement fuel)).on s := by
  rw [on_statements_succ, if_neg (by simp [h.inside, h.ahead, h.going])]

theorem on_topLevel_going (h : Going s) (fuel : Nat) : (topLevel statement (fuel + 1)).on s =
    (andRest statement (topLevel statement fuel)).on s := by
  rw [on_topLevel_succ, if_neg (by simp [h.ahead, h.going]), if_neg h.inside]

/-- If a statement is skipped, the rest is all there is. -/
theorem on_andRest_skipped {rest : Parser (List Script.Stmt)}
    (hskipped : (statementOrSkip statement).on s = (some none, t)) :
    (andRest statement rest).on s = rest.on t := by
  unfold andRest
  rw [on_bind, hskipped]
  show (rest >>= pure).on t = rest.on t
  rw [bind_pure]

/-- The states from which the statements of a script are read, one after the other, if the first one is
read from `s`. -/
inductive Begins (statement : StmtParser) (s : State) : State → Prop
  | first : Begins statement s s
  | next {t : State} (h : Begins statement s t) : Begins statement s ((statementOrSkip statement).on t).2
  | brace {t : State} (h : Begins statement s t) : Begins statement s (t.reporting .strayBrace).taken

theorem Begins.kept (hs : Routine .script statement) (h : Begins statement s t) :
    t.depth = s.depth ∧ t.loops = s.loops := by
  induction h with
  | first => exact ⟨rfl, rfl⟩
  | next _ ih =>
    obtain ⟨hdepth, hloops⟩ := hs.statementOrSkip.kept _
    exact ⟨hdepth.trans ih.1, hloops.trans ih.2⟩
  | brace _ ih =>
    rw [State.taken_depth, State.taken_loops]
    exact ih

theorem Begins.andRest {rest : Parser (List Script.Stmt)} (h : Begins statement s t)
    (hrest : ∀ t, Begins statement s t → Begins statement s (rest.on t).2) :
    Begins statement s ((andRest statement rest).on t).2 := by
  unfold Script.Parser.andRest
  rw [on_bind]
  cases ((statementOrSkip statement).on t).1 with
  | none => exact h.next
  | some o =>
    show Begins statement s (((fun ss => o.toList ++ ss) <$> rest).on _).2
    rw [on_map]
    exact hrest _ h.next

theorem Begins.topLevel (h : Begins statement s t) (fuel : Nat) :
    Begins statement s ((topLevel statement fuel).on t).2 := by
  induction fuel generalizing t with
  | zero => exact h
  | succ fuel ih =>
    rw [on_topLevel_succ]
    split
    · exact h
    · split
      · exact ih h.brace
      · exact h.andRest fun _ ht => ih ht

end Statements

/-- The counts of nested expressions and of loops.

Every function of the parsers leaves both as they were, with a result or without.  Neither is zero when
it is lowered: were zero lowered to anything else, the two functions that lower a count would do the
same.

After a statement that is skipped the parser has moved on and has found problems, and that is all; what
is read then is the rest of the list that the statement stands in.  So wherever a statement of a script
begins, the counts are what they were at the first one. -/
theorem counts_are_kept :
    (∀ {l : Language} {α : Type} {p : Parser α} (s : State), Routine l p →
      (p.on s).2.depth = s.depth ∧ (p.on s).2.loops = s.loops) ∧
    (∀ {lower : Nat → Nat}, (∀ n, lower (n + 1) = n) →
      (∀ {l : Language} {α : Type} {p : Parser α}, Routine l p → nestedBy lower p = nested p) ∧
      ∀ {statement : StmtParser}, Routine .script statement →
        Script.Parser.loopBodyBy lower statement = Script.Parser.loopBody statement) ∧
    (∀ {statement : StmtParser} {s t : State}, Routine .script statement →
      (Script.Parser.statementOrSkip statement).on s = (some none, t) →
      t = { s with rest := t.rest, previous := t.previous, problems := t.problems } ∧
      (Going s → ∀ fuel,
        (Script.Parser.statements statement (fuel + 1)).on s =
          (Script.Parser.statements statement fuel).on t ∧
        (Script.Parser.topLevel statement (fuel + 1)).on s =
          (Script.Parser.topLevel statement fuel).on t)) ∧
    (∀ {statement : StmtParser} {s : State} (fuel : Nat),
      Begins statement s ((Script.Parser.topLevel statement fuel).on s).2) ∧
    (∀ {statement : StmtParser} {s t : State}, Routine .script statement → Begins statement s t →
      t.depth = s.depth ∧ t.loops = s.loops) := by
  refine ⟨fun s h => h.kept s, fun hlower => ⟨fun h => nestedBy_eq h.grows hlower,
    fun h => loopBodyBy_eq h.grows hlower⟩, fun h hskipped => ⟨?_, fun hgoing fuel => ⟨?_, ?_⟩⟩,
    fun fuel => Begins.first.topLevel fuel, fun h hbegins => hbegins.kept h⟩
  · exact eq_of_on_statementOrSkip h (congrArg Prod.snd hskipped)
  · rw [on_statements_going hgoing, on_andRest_skipped hskipped]
  · rw [on_topLevel_going hgoing, on_andRest_skipped hskipped]

end Parser
end Workbook
