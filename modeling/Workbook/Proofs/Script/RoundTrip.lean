/-
What is printed is read again.

An expression that a script can write (`Expr.regular`) is printed with parentheses where its operands
ask for them, and where care has to be taken so that no brace and no function is taken for a statement.
Whatever tokens on one line are of the kinds that are printed, the parser of expressions reads all of
them, without a problem, and what it reads is the expression up to where its parts stand:
`Expr.print_read_back`.

For this what is printed is shown to be what the grammar writes, by induction over the tree
(`Expr.prints`), and what the grammar writes is what the parser reads (`Parser.accepted_level`).
-/
import Workbook.Proofs.Script.Printed.Statement

namespace Workbook
namespace Script

open Token (Kind Symbol Keyword)

variable {style : Style}

/-! ## What is printed is written -/

section Written

variable (careful : style.careful = true)

-- Two of the theorems need the care that is taken, and through them all of them do.
set_option linter.unusedSectionVars false
include careful

mutual

theorem Expr.prints : ∀ e : Expr, e.regular = true → e.Prints style
  | .undefined _, _ => Expr.prints_undefined
  | .null _, _ => Expr.prints_null
  | .boolean _ b, _ => Expr.prints_boolean b
  | .number _ x, _ => Expr.prints_number x
  | .string _ s, _ => Expr.prints_string s
  | .name _ s, _ => Expr.prints_name s
  | .template _ pieces, regular => by
    have hpieces := regular
    simp only [Expr.regular, Bool.and_eq_true] at hpieces
    exact Expr.prints_template regular (holes_print pieces false hpieces.2)
  | .array _ items, regular => Expr.prints_array (items_print items regular)
  | .object _ entries, regular => Expr.prints_object (entries_print entries regular)
  | .member _ object key, regular => Expr.prints_member (object.prints regular) key
  | .index _ object key, regular => by
    simp only [Expr.regular, Bool.and_eq_true] at regular
    exact Expr.prints_index (object.prints regular.1) (key.prints regular.2)
  | .call _ callee arguments, regular => by
    simp only [Expr.regular, Bool.and_eq_true] at regular
    exact Expr.prints_call (callee.prints regular.1) (items_print arguments regular.2)
  | .unary _ op operand, regular => Expr.prints_unary (operand.prints regular) op
  | .update _ increment first target, regular => by
    simp only [Expr.regular, Bool.and_eq_true] at regular
    exact Expr.prints_update (target.prints regular.2) regular.1 increment first
  | .binary _ op left right, regular => by
    simp only [Expr.regular, Bool.and_eq_true] at regular
    exact Expr.prints_binary (left.prints regular.1) (right.prints regular.2) op
  | .logical _ op left right, regular => by
    simp only [Expr.regular, Bool.and_eq_true] at regular
    exact Expr.prints_logical (left.prints regular.1) (right.prints regular.2) op
  | .conditional _ condition yes no, regular => by
    simp only [Expr.regular, Bool.and_eq_true] at regular
    exact Expr.prints_conditional (condition.prints regular.1.1) (yes.prints regular.1.2)
      (no.prints regular.2)
  | .assign _ op target value, regular => by
    simp only [Expr.regular, Bool.and_eq_true] at regular
    exact Expr.prints_assign (target.prints regular.1.2) (value.prints regular.2) regular.1.1 op
  | .function f, regular => Expr.prints_function careful regular (f.body_prints regular)

theorem holes_print : ∀ (pieces : List (Piece Expr)) (after : Bool),
    regularPieces pieces after = true → ∀ e, .hole e ∈ pieces → e.Prints style
  | [], _, _, _, he => absurd he List.not_mem_nil
  | .text _ :: rest, _, regular, e, he => by
    simp only [regularPieces, Bool.and_eq_true] at regular
    obtain he | he := List.mem_cons.1 he
    · cases he
    · exact holes_print rest true regular.2 e he
  | .hole first :: rest, _, regular, e, he => by
    simp only [regularPieces, Bool.and_eq_true] at regular
    obtain he | he := List.mem_cons.1 he
    · cases he
      exact first.prints regular.1
    · exact holes_print rest false regular.2 e he

theorem items_print : ∀ items : List (Item Expr), regularItems items = true →
    ∀ i ∈ items, i.content.Prints style
  | [], _ => fun _ hi => absurd hi List.not_mem_nil
  | .one e :: rest, regular => by
    simp only [regularItems, Bool.and_eq_true] at regular
    exact List.forall_mem_cons.2 ⟨e.prints regular.1, items_print rest regular.2⟩
  | .spread e :: rest, regular => by
    simp only [regularItems, Bool.and_eq_true] at regular
    exact List.forall_mem_cons.2 ⟨e.prints regular.1, items_print rest regular.2⟩

theorem entries_print : ∀ entries : List (Entry Expr), regularEntries entries = true →
    ∀ a ∈ entries, EntryPrints style a
  | [], _ => fun _ ha => absurd ha List.not_mem_nil
  | .field _ e :: rest, regular => by
    simp only [regularEntries, Bool.and_eq_true] at regular
    refine List.forall_mem_cons.2 ⟨?_, entries_print rest regular.2⟩
    exact entryPrints_field (e.prints regular.1) regular.1 (e.value_prints regular.1)
  | .spread e :: rest, regular => by
    simp only [regularEntries, Bool.and_eq_true] at regular
    exact List.forall_mem_cons.2
      ⟨entryPrints_spread (e.prints regular.1), entries_print rest regular.2⟩

/-- The body of a function that is a value. -/
theorem Expr.value_prints : ∀ e : Expr, e.regular = true → ∀ f, e = .function f → f.body.Prints style
  | .function f, regular, _, rfl => f.body_prints regular

theorem option_prints : ∀ value : Option Expr, regularOption value = true →
    ∀ e ∈ value, e.Prints style
  | none, _ => fun e he => absurd he (Option.not_mem_none e)
  | some e, regular => fun _ he => Option.mem_some.1 he ▸ e.prints regular

theorem Function.body_prints : ∀ f : Function, f.regular = true → f.body.Prints style
  | .mk _ _ body _, regular => by
    simp only [Function.regular, Bool.and_eq_true] at regular
    exact body.prints regular.2

theorem Body.prints : ∀ b : Body, b.regular = true → b.Prints style
  | .block body, regular => statements_print body false regular
  | .expr e, regular => e.prints regular

theorem Stmt.prints : ∀ (s : Stmt) (loop : Bool), s.regular loop = true → s.Prints style loop
  | .declaration _ how key value, loop, regular => by
    simp only [Stmt.regular, Bool.and_eq_true] at regular
    exact Stmt.prints_declaration regular.1 (option_prints value regular.2)
  | .function f, loop, regular => by
    simp only [Stmt.regular, Bool.and_eq_true] at regular
    exact Stmt.prints_function (Bool.and_eq_true _ _ ▸ regular.1) (f.body_prints regular.2)
  | .branch _ condition yes none, loop, regular => by
    simp only [Stmt.regular, Bool.and_eq_true] at regular
    exact Stmt.prints_branch_none (condition.prints regular.1.1.1) (yes.prints loop regular.1.1.2)
  | .branch _ condition yes (some no), loop, regular => by
    simp only [Stmt.regular, regularBranch, Bool.and_eq_true, Option.isNone_some, Bool.false_or,
      Bool.not_eq_true'] at regular
    exact Stmt.prints_branch_some (condition.prints regular.1.1.1) (yes.prints loop regular.1.1.2)
      (no.prints loop regular.1.2) regular.2
  | .whileLoop _ condition body, loop, regular => by
    simp only [Stmt.regular, Bool.and_eq_true] at regular
    exact Stmt.prints_whileLoop (condition.prints regular.1) (body.prints true regular.2)
  | .forLoop _ first condition step body, loop, regular => by
    simp only [Stmt.regular, Bool.and_eq_true] at regular
    exact Stmt.prints_forLoop (start_prints first loop regular.1.1.1.1 regular.1.1.1.2)
      (option_prints condition regular.1.1.2) (option_prints step regular.1.2)
      (body.prints true regular.2)
  | .forOf _ _ _ items body, loop, regular => by
    simp only [Stmt.regular, Bool.and_eq_true] at regular
    exact Stmt.prints_forOf (items.prints regular.1) (body.prints true regular.2)
  | .returns _ value, loop, regular => Stmt.prints_returns (option_prints value regular)
  | .breaks _, loop, regular => by
    obtain rfl : loop = true := regular
    exact Stmt.prints_breaks
  | .continues _, loop, regular => by
    obtain rfl : loop = true := regular
    exact Stmt.prints_continues
  | .throws _ value, loop, regular => Stmt.prints_throws (value.prints regular)
  | .block _ body, loop, regular => Stmt.prints_block (statements_print body loop regular)
  | .expr e, loop, regular => Stmt.prints_expr careful (e.prints regular)
  | .empty _, loop, _ => Stmt.prints_empty

theorem start_prints : ∀ (start : Option Stmt) (loop : Bool), start.all Stmt.startsLoop = true →
    regularBranch start loop = true → StartPrints style start
  | none, _, _, _ => startPrints_none
  | some (.expr e), _, _, regular => startPrints_expr (e.prints regular)
  | some (.declaration _ _ _ value), _, _, regular => by
    simp only [regularBranch, Stmt.regular, Bool.and_eq_true] at regular
    exact startPrints_declaration regular.1 (option_prints value regular.2)

theorem statements_print : ∀ (body : List Stmt) (loop : Bool), regularStatements body loop = true →
    StatementsPrint style body loop
  | [], _, _ => statementsPrint_nil
  | s :: rest, loop, regular => by
    simp only [regularStatements, Bool.and_eq_true] at regular
    exact statementsPrint_cons (s.prints loop regular.1) (statements_print rest loop regular.2)

end

end Written

/-! ## The end is not printed -/

namespace Print

/-- The end of the input is none of the tokens. -/
def Inner (a : Print) : Prop :=
  .endOfInput ∉ a.kinds

variable {a b : Print} {k : Kind}

@[simp] theorem inner_empty : empty.Inner :=
  List.not_mem_nil

@[simp] theorem inner_token : (token k).Inner ↔ k ≠ .endOfInput := by
  simp [Inner, token, eq_comm]

@[simp] theorem inner_symbol (x : Symbol) : (symbol x).Inner := by
  simp [symbol]

@[simp] theorem inner_word (w : Keyword) : (word w).Inner := by
  simp [word]

@[simp] theorem inner_name (x : Name) : (name x).Inner := by
  simp [name]

@[simp] theorem inner_append : (a ++ b).Inner ↔ a.Inner ∧ b.Inner := by
  show .endOfInput ∉ a.kinds ++ b.kinds ↔ _
  rw [List.mem_append, not_or]
  rfl

@[simp] theorem inner_inside : a.inside.Inner ↔ a.Inner :=
  Iff.rfl

@[simp] theorem inner_parenthesized : a.parenthesized.Inner ↔ a.Inner := by
  simp [parenthesized]

@[simp] theorem inner_within {p q : Nat} : (a.within p q).Inner ↔ a.Inner := by
  unfold within
  split
  · exact Iff.rfl
  · exact inner_parenthesized

@[simp] theorem inner_guarded {careful : Bool} {begins : List Kind → Bool} :
    (a.guarded careful begins).Inner ↔ a.Inner := by
  unfold guarded
  split
  · exact inner_parenthesized
  · exact Iff.rfl

@[simp] theorem inner_braces : (braces a).Inner ↔ a.Inner := by
  simp [braces]

theorem inner_commas {as : List Print} (h : ∀ a ∈ as, a.Inner) : (commas as).Inner := by
  induction as with
  | nil => exact inner_empty
  | cons a as ih =>
    obtain ⟨ha, has⟩ := List.forall_mem_cons.1 h
    cases as with
    | nil => exact ha
    | cons b as => simp [commas, ha, ih has]

@[simp] theorem inner_parameters (ps : List Name) : (parameters ps).Inner := by
  have hps : (commas (ps.map name)).Inner := inner_commas (by simp)
  simp [parameters, hps]

@[simp] theorem inner_arrowParameters (ps : List Name) : (arrowParameters ps).Inner := by
  unfold arrowParameters
  split <;> simp

theorem Inner.behind (h : a.Inner) : a.behind.Inner :=
  fun hmem => h (List.mem_of_mem_drop hmem)

theorem Inner.function {f : Function} (h : a.Inner) : (Print.function style f a).Inner := by
  unfold Print.function
  split
  · simp [h]
  · cases f.name <;> simp [h]

theorem Inner.field {key : Name} {value : Expr} (h : a.Inner) : (Print.field key value a).Inner := by
  unfold Print.field
  split
  · split <;> simp [h]
  · split
    · exact h.behind
    · simp [h]
  · simp [h]

end Print

section Inner

open Print

mutual

theorem Expr.inner_print : ∀ e : Expr, (e.print style).Inner
  | .undefined _ | .null _ => inner_word _
  | .boolean _ b => inner_word _
  | .number _ _ | .string _ _ | .name _ _ => by simp
  | .template _ pieces => inner_printPieces pieces _ _ (fun _ => by simp)
  | .array _ items => by
    simp [inner_commas (inner_printItems items)]
  | .object _ entries => by
    simp [inner_commas (inner_printEntries entries)]
  | .member _ object key => by simp [object.inner_print]
  | .index _ object key => by simp [object.inner_print, key.inner_print]
  | .call _ callee arguments => by
    simp [callee.inner_print, inner_commas (inner_printItems arguments)]
  | .unary _ op operand => by
    cases op <;> simp [UnaryOp.kind, operand.inner_print]
  | .update _ _ first target => by
    cases first <;> simp [target.inner_print]
  | .binary _ op left right => by
    cases op <;> simp [BinaryOp.kind, left.inner_print, right.inner_print]
  | .logical _ op left right => by
    cases op <;> simp [LogicalOp.kind, left.inner_print, right.inner_print]
  | .conditional _ condition yes no => by
    simp [condition.inner_print, yes.inner_print, no.inner_print]
  | .assign _ _ target value => by simp [target.inner_print, value.inner_print]
  | .function f => f.inner_print

theorem inner_printPieces : ∀ (pieces : List (Piece Expr)) (mark : String → Kind) (text : String),
    (∀ s, mark s ≠ .endOfInput) → (printPieces style pieces mark text).Inner
  | [], _, _, _ => by simp
  | .text s :: rest, mark, _, hmark => inner_printPieces rest mark s hmark
  | .hole e :: rest, mark, text, hmark => by
    have hrest := inner_printPieces rest .stringPart "" (fun _ => by simp)
    simp [hmark, e.inner_print, hrest]

theorem inner_printItems : ∀ items : List (Item Expr), ∀ a ∈ printItems style items, a.Inner
  | [] => fun _ ha => absurd ha List.not_mem_nil
  | .one e :: rest => List.forall_mem_cons.2 ⟨e.inner_print, inner_printItems rest⟩
  | .spread e :: rest =>
    List.forall_mem_cons.2 ⟨by simp [e.inner_print], inner_printItems rest⟩

theorem inner_printEntries : ∀ entries : List (Entry Expr), ∀ a ∈ printEntries style entries, a.Inner
  | [] => fun _ ha => absurd ha List.not_mem_nil
  | .field _ e :: rest => List.forall_mem_cons.2 ⟨e.inner_print.field, inner_printEntries rest⟩
  | .spread e :: rest =>
    List.forall_mem_cons.2 ⟨by simp [e.inner_print], inner_printEntries rest⟩

theorem inner_printOption : ∀ value : Option Expr, (printOption style value).Inner
  | none => inner_empty
  | some e => e.inner_print

theorem Function.inner_print : ∀ f : Function, (f.print style).Inner
  | .mk _ _ body _ => body.inner_print.function

theorem Body.inner_print : ∀ b : Body, (b.print style).Inner
  | .block body => inner_braces.2 (inner_printStatements body)
  | .expr e => inner_guarded.2 e.inner_print

theorem Stmt.inner_print : ∀ s : Stmt, (s.print style).Inner
  | .declaration _ _ _ none => by simp
  | .declaration _ _ _ (some value) => by simp [value.inner_print]
  | .function f => f.inner_print
  | .branch _ condition yes no => by
    simp [condition.inner_print, yes.inner_print, inner_printElse no]
  | .whileLoop _ condition body => by simp [condition.inner_print, body.inner_print]
  | .forLoop _ first condition step body => by
    simp [inner_printStart first, inner_printOption condition, inner_printOption step,
      body.inner_print]
  | .forOf _ _ _ items body => by simp [items.inner_print, body.inner_print]
  | .returns _ value => by simp [inner_printOption value]
  | .breaks _ | .continues _ | .empty _ => by simp
  | .throws _ value => by simp [value.inner_print]
  | .block _ body => inner_braces.2 (inner_printStatements body)
  | .expr e => by simp [e.inner_print]

theorem inner_printElse : ∀ no : Option Stmt, (printElse style no).Inner
  | none => inner_empty
  | some s => by simp [s.inner_print]

theorem inner_printStart : ∀ first : Option Stmt, (printStart style first).Inner
  | none => inner_symbol _
  | some s => by
    have hs := s.inner_print
    cases s with
    | expr e => simpa [printStart, Stmt.print] using hs
    | _ => exact hs

theorem inner_printStatements : ∀ body : List Stmt, (printStatements style body).Inner
  | [] => inner_empty
  | s :: rest => inner_append.2 ⟨s.inner_print, inner_printStatements rest⟩

end

end Inner

/-! ## What is printed is read -/

/-- Whatever tokens on one line print the expression, all of them are read, without a problem, and what
is read is the expression up to where its parts stand. -/
def Expr.ReadBack (style : Style) (e : Expr) : Prop :=
  ∀ ⦃line ts final⦄, ts.map Token.kind = (e.print style).kinds → (∀ t ∈ ts, t.span.line = line) →
    final.kind = .endOfInput →
      ∃ e' s', Parser.expression.on (Workbook.Parser.start (ts ++ [final])) = (some e', s') ∧
        s'.rest = [final] ∧ s'.problems.isEmpty = true ∧ e'.unplaced = e.unplaced

/-- An expression that a script can write and that is nested no deeper than may be is read back. -/
theorem Expr.print_read_back (careful : style.careful = true) {e : Expr} (regular : e.regular = true)
    (levels : (e.print style).inside.levels ≤ Workbook.Parser.maxNesting) : e.ReadBack style := by
  intro line ts final kinds lines ends
  have fits : (e.print style).inside.Fits Workbook.Parser.maxNesting line ts := ⟨levels, kinds, lines⟩
  obtain ⟨e', he, hplain⟩ := (e.prints careful regular).inside fits
  have hinner (t : Token) (ht : t ∈ ts) : t.kind ≠ .endOfInput := by
    intro hk
    have hmem : t.kind ∈ (e.print style).kinds := kinds ▸ List.mem_map_of_mem ht
    exact e.inner_print (hk ▸ hmem)
  let s := Workbook.Parser.start (ts ++ [final])
  have hready : s.Ready Workbook.Parser.maxNesting := ⟨rfl, rfl⟩
  have htokens : s.rest = ts ++ [final] := rfl
  obtain ⟨s', passes, hrest⟩ := Workbook.Parser.State.Passes.exists_of_rest htokens hinner
  have hrank : Grammar.rank s'.kind = 0 := by
    rw [Workbook.Parser.kind_of_rest ends hrest]
    rfl
  obtain ⟨hon, hclean⟩ := (Parser.accepted_level _).expr hready ⟨he, hrank⟩ passes
  exact ⟨e', s', hon, hrest, by rw [Workbook.Problems.isEmpty, hclean]; rfl, hplain⟩

/-- The tokens of a print, all at one place. -/
def Print.tokens (a : Print) : List Token :=
  a.kinds.map (⟨·, default⟩)

theorem Print.kinds_tokens (a : Print) : a.tokens.map Token.kind = a.kinds := by
  rw [tokens, List.map_map]
  exact List.map_id _

theorem Print.line_tokens (a : Print) : ∀ t ∈ a.tokens, t.span.line = (default : Span).line := by
  intro t ht
  obtain ⟨k, -, rfl⟩ := List.mem_map.1 ht
  rfl

/-- `a = x => ({ x, b: -x ** 2 })` -/
def assignedArrow : Expr :=
  .assign default .plain (.name default "a") (.function (.mk none [⟨"x", default⟩]
    (.expr (.object default [.field ⟨"x", default⟩ (.name default "x"),
      .field ⟨"b", default⟩ (.binary default .pow (.unary default .neg (.name default "x"))
        (.number default 2))])) default))

theorem assignedArrow_read_back : assignedArrow.regular = true ∧
    (assignedArrow.print ⟨true, true⟩).inside.levels ≤ Workbook.Parser.maxNesting ∧
    ∃ e' s', Parser.expression.on (Workbook.Parser.start
        ((assignedArrow.print ⟨true, true⟩).tokens ++ [⟨.endOfInput, default⟩])) = (some e', s') ∧
      s'.rest = [⟨.endOfInput, default⟩] ∧ s'.problems.isEmpty = true ∧
      e'.unplaced = assignedArrow.unplaced :=
  have levels : (assignedArrow.print ⟨true, true⟩).inside.levels ≤ Workbook.Parser.maxNesting := by
    decide
  ⟨rfl, levels, Expr.print_read_back rfl rfl levels (Print.kinds_tokens _) (Print.line_tokens _) rfl⟩

/-! ### Where care is needed -/

/-- What the tokens of a print are read as, up to where its parts stand. -/
def Print.read (a : Print) : Option Expr :=
  (Parser.expression.on (Workbook.Parser.start (a.tokens ++ [⟨.endOfInput, default⟩]))).1.map
    Expr.unplaced

theorem Expr.ReadBack.read {e : Expr} (h : e.ReadBack style) :
    (e.print style).read = some e.unplaced := by
  have hfinal : (⟨.endOfInput, default⟩ : Token).kind = .endOfInput := rfl
  obtain ⟨e', s', hon, -, -, hplain⟩ :=
    h (e.print style).kinds_tokens (e.print style).line_tokens hfinal
  rw [Print.read, hon, Option.map_some, hplain]

/-- `() => {}`, where the braces are meant for an object. -/
def arrowToObject : Expr :=
  .function (.mk none [] (.expr (.object default [])) default)

/-- `function() { {}; }`, where the inner braces are meant for an object. -/
def objectAsStatement : Expr :=
  .function (.mk none [] (.block [.expr (.object default [])]) default)

/-- A function with a name and an arrow. -/
def namedArrow : Expr :=
  .function (.mk (some ⟨"f", default⟩) [] (.expr (.null default)) default)

/-- Where parentheses stand only where operands ask for them, braces that are meant for an object are
read as statements, behind an arrow and where a statement begins; and a function with a name has no
arrow, whatever care is taken. -/
theorem braces_and_names_not_read_back :
    (arrowToObject.regular = true ∧ (arrowToObject.print ⟨false, true⟩).levels = 1 ∧
        ¬ arrowToObject.ReadBack ⟨false, true⟩) ∧
      (objectAsStatement.regular = true ∧ (objectAsStatement.print ⟨false, true⟩).levels = 1 ∧
        ¬ objectAsStatement.ReadBack ⟨false, true⟩) ∧
      ∀ careful arrows, ¬ namedArrow.ReadBack ⟨careful, arrows⟩ := by
  refine ⟨⟨rfl, rfl, fun h => ?_⟩, ⟨rfl, rfl, fun h => ?_⟩, fun careful arrows h => ?_⟩
  · have hread : (arrowToObject.print ⟨false, true⟩).read =
        some (.function (.mk none [] (.block []) default)) := rfl
    cases hread.symm.trans h.read
  · have hread : (objectAsStatement.print ⟨false, true⟩).read =
        some (.function (.mk none [] (.block [.block default [], .empty default]) default)) := rfl
    cases hread.symm.trans h.read
  · have hread : (namedArrow.print ⟨careful, arrows⟩).read =
        some (.function (.mk none [] (.expr (.null default)) default)) := by
      cases careful <;> rfl
    cases hread.symm.trans h.read

end Script
end Workbook
