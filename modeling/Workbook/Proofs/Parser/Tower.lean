/-
Scripts whose trees are as high as one likes.

The steps down a tree that no limit is on can be taken any number of times: `[]%[]%[]` is a row of
operands, `[]()()` a row of calls, and braces can stand in braces.  So where one of these steps counts,
no bound holds for all texts (`zero_of_boundedBy`).

The texts are made of symbols that are one character each, so their tokens are these symbols
(`lex_alone`), and the grammar says what they write.
-/
import Workbook.Proofs.Parser.Height
import Workbook.Proofs.Script.Completeness

namespace Workbook
namespace Token

/-! ## Symbols that stand alone -/

/-- The symbols of one character that no other symbol begins with. -/
def Symbol.isAlone : Symbol → Bool
  | .percent | .leftParen | .rightParen | .leftBracket | .rightBracket | .leftBrace
  | .rightBrace => true
  | _ => false

/-- The text that some symbols write. -/
def textOf (xs : List Symbol) : List Char :=
  xs.flatMap (·.text.toList)

namespace Lexer

/-- A symbol that stands alone is one step, which no blanks come before. -/
theorem codeStep_alone {x : Symbol} (hx : x.isAlone = true) : ∃ ch, x.text.toList = [ch] ∧
    (∀ cs, blanks 0 0 .code (ch :: cs) = (0, none)) ∧
    ∀ (c : Cursor) cs, c.rest = ch :: cs →
      codeStep .script ch ⟨c, []⟩ = plainStep (.symbol x) 1 ⟨c, []⟩ [] := by
  cases x <;> first
    | exact absurd hx Bool.false_ne_true
    | (refine ⟨_, rfl, fun _ => rfl, ?_⟩
       rintro ⟨_, place⟩ cs rfl
       rfl)

theorem lexFrom_alone (xs : List Symbol) (hxs : ∀ x ∈ xs, x.isAlone = true) {c : Cursor}
    (hc : c.rest = textOf xs) :
    ∃ ts final, lexFrom .script .empty ⟨c, []⟩ = (ts ++ [final], .empty) ∧
      ts.map Token.kind = xs.map .symbol ∧ final.kind = .endOfInput := by
  induction xs generalizing c with
  | nil => exact ⟨[], finish c, lexFrom_nil hc, rfl, rfl⟩
  | cons x xs ih =>
    obtain ⟨ch, htext, hblanks, hstep⟩ := codeStep_alone (hxs x List.mem_cons_self)
    have hrest : c.rest = ch :: textOf xs := by
      rw [hc, textOf, List.flatMap_cons, htext]
      rfl
    have hdrop : (c.drop 1).rest = textOf xs := by
      unfold Cursor.drop
      rw [hrest]
      rfl
    obtain ⟨ts, final, hlex, hkinds, hfinal⟩ := ih (fun y hy => hxs y (List.mem_cons_of_mem _ hy)) hdrop
    refine ⟨⟨.symbol x, c.span 1⟩ :: ts, final, ?_, by rw [List.map_cons, hkinds]; rfl, hfinal⟩
    rw [lexFrom_plain hrest (hblanks _) (hstep c _ hrest), hlex]
    rfl

end Lexer

/-- The tokens of a text of symbols that stand alone are these symbols. -/
theorem lex_alone {xs : List Symbol} (hxs : ∀ x ∈ xs, x.isAlone = true) (name : String) :
    ∃ ts final, lex .script ⟨name, String.ofList (textOf xs)⟩ = (ts ++ [final], .empty) ∧
      ts.map Token.kind = xs.map .symbol ∧ final.kind = .endOfInput :=
  Lexer.lexFrom_alone xs hxs (by simp [Cursor.start])

/-- Tokens that are these symbols. -/
def Spells (xs : List Symbol) (ts : List Token) : Prop :=
  ts.map Token.kind = xs.map .symbol

namespace Spells

variable {x : Symbol} {xs ys : List Symbol} {ts : List Token}

theorem nil (h : Spells [] ts) : ts = [] :=
  List.map_eq_nil_iff.1 h

theorem cons (h : Spells (x :: xs) ts) : ∃ span us, ts = ⟨.symbol x, span⟩ :: us ∧ Spells xs us := by
  obtain ⟨⟨k, span⟩, us, rfl, hk, hus⟩ := List.map_eq_cons_iff.1 h
  have hk : k = .symbol x := hk
  subst hk
  exact ⟨span, us, rfl, hus⟩

theorem pair {y : Symbol} (h : Spells [x, y] ts) :
    ∃ span span', ts = [⟨.symbol x, span⟩, ⟨.symbol y, span'⟩] := by
  obtain ⟨span, us, rfl, hus⟩ := h.cons
  obtain ⟨span', vs, rfl, hvs⟩ := hus.cons
  obtain rfl := hvs.nil
  exact ⟨span, span', rfl⟩

theorem append (h : Spells (xs ++ ys) ts) : ∃ us vs, ts = us ++ vs ∧ Spells xs us ∧ Spells ys vs := by
  unfold Spells at h
  rw [List.map_append] at h
  obtain ⟨us, vs, rfl, hus, hvs⟩ := List.map_eq_append_iff.1 h
  exact ⟨us, vs, rfl, hus, hvs⟩

end Spells
end Token

/-! ## Rows and nests -/

namespace Script
namespace Grammar

open Token (Symbol Spells)
open Workbook.Parser (Phrase Chain)

/-- An empty list, with something behind it again and again. -/
def row (again : List Symbol) : Nat → List Symbol
  | 0 => [.leftBracket, .rightBracket]
  | k + 1 => row again k ++ again

/-- Calls in a row. -/
def calls : Nat → List Symbol :=
  row [.leftParen, .rightParen]

/-- Operands in a row. -/
def factors : Nat → List Symbol :=
  row [.percent, .leftBracket, .rightBracket]

/-- Braces in braces. -/
def nest : Nat → List Symbol
  | 0 => []
  | k + 1 => .leftBrace :: (nest k ++ [.rightBrace])

theorem alone_row {again : List Symbol} (h : ∀ x ∈ again, x.isAlone = true) (k : Nat) :
    ∀ x ∈ row again k, x.isAlone = true := by
  induction k with
  | zero =>
    rw [row]
    decide
  | succ k ih =>
    rw [row, List.forall_mem_append]
    exact ⟨ih, h⟩

theorem alone_nest (k : Nat) : ∀ x ∈ nest k, x.isAlone = true := by
  induction k with
  | zero => decide
  | succ k ih =>
    rw [nest, List.forall_mem_cons, List.forall_mem_append]
    exact ⟨rfl, ih, by decide⟩

theorem row_eq_cons (again : List Symbol) (k : Nat) : ∃ xs, row again k = .leftBracket :: xs := by
  induction k with
  | zero => exact ⟨_, rfl⟩
  | succ k ih =>
    obtain ⟨xs, hxs⟩ := ih
    exact ⟨xs ++ again, by rw [row, hxs]; rfl⟩

/-- A row is no statement but an expression. -/
theorem opensStatement_row {again : List Symbol} {k : Nat} {ts : List Token}
    (h : Spells (row again k) ts) : opensStatement ts = false := by
  obtain ⟨xs, hxs⟩ := row_eq_cons again k
  rw [hxs] at h
  obtain ⟨span, us, rfl, -⟩ := h.cons
  rfl

section

variable {E U W : Phrase Expr} {B : Phrase (List Stmt)} {ts : List Token}

theorem suffixed_list (h : Spells [.leftBracket, .rightBracket] ts) : ∃ e, Suffixed E B ts e := by
  obtain ⟨first, last, rfl⟩ := h.pair
  exact ⟨_, .primary (.array .nil)⟩

/-- Each call is a step to what is called. -/
theorem suffixed_calls (w : Steps) {k : Nat} (h : Spells (calls k) ts) :
    ∃ e, Suffixed E B ts e ∧ k * w.object ≤ e.height w := by
  induction k generalizing ts with
  | zero =>
    obtain ⟨e, he⟩ := suffixed_list h
    exact ⟨e, he, by omega⟩
  | succ k ih =>
    obtain ⟨us, vs, rfl, hus, hvs⟩ := h.append
    obtain ⟨e, he, hheight⟩ := ih hus
    obtain ⟨first, last, rfl⟩ := hvs.pair
    refine ⟨_, .call he .nil, ?_⟩
    rw [Expr.height, Nat.succ_mul]
    omega

/-- Each operator is a step to its left operand. -/
theorem chain_factors (w : Steps) {k : Nat} (h : Spells (factors k) ts) :
    ∃ e, Chain (joins 9) (Power (Prefixed E B U) W) ts e ∧ k * w.operand ≤ e.height w := by
  have hlist {ts : List Token} (h : Spells [.leftBracket, .rightBracket] ts) :
      ∃ e, Power (Prefixed E B U) W ts e := by
    obtain ⟨e, he⟩ := suffixed_list h
    exact ⟨e, .one (.updated (.suffixed he))⟩
  induction k generalizing ts with
  | zero =>
    obtain ⟨e, he⟩ := hlist h
    exact ⟨e, .one he, by omega⟩
  | succ k ih =>
    obtain ⟨us, vs, rfl, hus, hvs⟩ := h.append
    obtain ⟨e, he, hheight⟩ := ih hus
    obtain ⟨span, vs', rfl, hvs'⟩ := hvs.cons
    obtain ⟨e', he'⟩ := hlist hvs'
    refine ⟨Parser.joined .mod e e', .more he rfl he', ?_⟩
    rw [Parser.joined, Expr.height, if_neg (by decide), Nat.succ_mul]
    omega

end

variable {ts : List Token} {final : Token}

/-- Factors are a script if they are no statement of another kind. -/
theorem written_factors (w : Steps) (hfinal : final.kind = .endOfInput)
    (hopens : opensStatement ts = false) {e : Expr}
    (h : Chain (joins 9) (level false 63).power ts e) :
    ∃ body, Written false ts body final ∧ e.height w ≤ heightStatements w body := by
  have hexpr : (level false 64).expr ts e :=
    .conditional (.one (.one (.one (.one (.one (.one (.one h)))))))
  have hrule : Statement (level false 64).expr false 1 false (ts ++ []) (.expr e) final :=
    .expr hexpr hopens (.finish hfinal)
  have hall := Statements.cons (C := Statement (level false 64).expr false 1 false) hrule .nil
  rw [List.append_nil, List.append_nil] at hall
  refine ⟨[.expr e], ⟨1, hall⟩, ?_⟩
  rw [heightStatements, Stmt.height]
  omega

/-- Each pair of braces is a step to the statements in it. -/
theorem statements_nest {E : Phrase Expr} (w : Steps) {k : Nat} (h : Spells (nest k) ts)
    (next : Token) : ∃ body, Statements (Statement E false k false) ts body next ∧
      k * w.inner ≤ heightStatements w body := by
  induction k generalizing ts next with
  | zero =>
    obtain rfl := h.nil
    exact ⟨[], .nil, by omega⟩
  | succ k ih =>
    obtain ⟨first, us, rfl, hus⟩ := h.cons
    obtain ⟨vs, ls, rfl, hvs, hls⟩ := hus.append
    obtain ⟨last, ms, rfl, hms⟩ := hls.cons
    obtain rfl := hms.nil
    obtain ⟨body, hbody, hheight⟩ := ih hvs ⟨.symbol .rightBrace, last⟩
    have hblock : Statement E false (k + 1) false (⟨.symbol .leftBrace, first⟩ :: (vs ++
        [⟨.symbol .rightBrace, last⟩])) (.block (first.merge last) body) next := .block hbody
    have hall : Statements (Statement E false (k + 1) false) (_ ++ []) _ next := .cons hblock .nil
    rw [List.append_nil] at hall
    refine ⟨_, hall, ?_⟩
    rw [heightStatements, Stmt.height, Nat.succ_mul]
    omega

end Grammar
end Script

/-! ## Whole texts -/

open Token (Symbol Spells)
open Script (heightStatements)
open Script.Grammar (Written calls factors nest)

/-- What the grammar says of symbols that stand alone is what their text comes to. -/
theorem compile_alone {xs : List Symbol} (hxs : ∀ x ∈ xs, x.isAlone = true) {w : Steps} {h : Nat}
    (hwritten : ∀ {ts : List Token} {final : Token}, Spells xs ts → final.kind = .endOfInput →
      ∃ body, Written false ts body final ∧ h ≤ heightStatements w body) :
    ∃ s p, Script.compile s = .ok p ∧ h ≤ heightStatements w p.body := by
  obtain ⟨ts, final, hlex, hspells, hfinal⟩ := Token.lex_alone hxs ""
  obtain ⟨body, hbody, hheight⟩ := hwritten hspells hfinal
  have hkinds : ∀ t ∈ ts, t.kind ≠ .endOfInput := by
    intro t ht hk
    have hmem := List.mem_map_of_mem (f := Token.kind) ht
    rw [hspells, hk] at hmem
    simp at hmem
  obtain ⟨p, s', rfl, hreads⟩ := Script.Parser.reads_of_written hkinds hfinal hbody
  refine ⟨⟨"", String.ofList (Token.textOf xs)⟩, p, ?_, hheight⟩
  rw [Parser.compile_script]
  refine Parser.settled_of_reads Script.Parser.grows_whole (by rw [hlex]) ?_
  rw [hlex]
  exact ⟨s', hreads⟩

/-- Where a step counts that no limit is on, no bound holds for all texts. -/
theorem zero_of_boundedBy {w : Steps} {bound : Nat} (h : BoundedBy w bound) :
    w.operand = 0 ∧ w.object = 0 ∧ w.inner = 0 := by
  have hzero {n : Nat} (hn : ∃ s p, Script.compile s = .ok p ∧
      (bound + 1) * n ≤ heightStatements w p.body) : n = 0 := by
    obtain ⟨s, p, hcompile, hheight⟩ := hn
    have hbound := h.2 s p hcompile
    cases n with
    | zero => rfl
    | succ n =>
      rw [Nat.mul_succ] at hheight
      omega
  have hcalls : ∀ x ∈ calls (bound + 1), x.isAlone = true :=
    Script.Grammar.alone_row (by decide) (bound + 1)
  have hfactors : ∀ x ∈ factors (bound + 1), x.isAlone = true :=
    Script.Grammar.alone_row (by decide) (bound + 1)
  refine ⟨hzero ?_, hzero ?_, hzero ?_⟩
  · refine compile_alone hfactors fun hspells hfinal => ?_
    obtain ⟨e, he, hheight⟩ := Script.Grammar.chain_factors w hspells
    obtain ⟨body, hbody, hle⟩ := Script.Grammar.written_factors w hfinal
      (Script.Grammar.opensStatement_row hspells) he
    exact ⟨body, hbody, Nat.le_trans hheight hle⟩
  · refine compile_alone hcalls fun hspells hfinal => ?_
    obtain ⟨e, he, hheight⟩ := Script.Grammar.suffixed_calls w hspells
    obtain ⟨body, hbody, hle⟩ := Script.Grammar.written_factors w hfinal
      (Script.Grammar.opensStatement_row hspells) (.one (.one (.updated (.suffixed he))))
    exact ⟨body, hbody, Nat.le_trans hheight hle⟩
  · refine compile_alone (Script.Grammar.alone_nest (bound + 1)) fun {ts final} hspells hfinal => ?_
    obtain ⟨body, hbody, hheight⟩ := Script.Grammar.statements_nest w hspells final
    exact ⟨body, ⟨_, hbody⟩, hheight⟩

/-- No bound holds for all texts if every step counts. -/
theorem no_bound_on_all_steps : ¬ ∃ bound, BoundedBy .all bound := by
  rintro ⟨bound, h⟩
  exact absurd (zero_of_boundedBy h).1 (by decide)

end Workbook
