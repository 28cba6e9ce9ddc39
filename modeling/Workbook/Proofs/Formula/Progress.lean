/-
How the parser of formulas comes to an end.

A call of one of its functions inside another comes after a token (`alike_unrolled`), and so does each
round of a loop that goes on.
-/
import Workbook.Proofs.Parser.Progress
import Workbook.Proofs.Formula.Primary

namespace Workbook
namespace Formula
namespace Parser

open Workbook.Parser
open Token (Symbol)

section

variable {n d : Nat} {expr expr' deeper deeper' operand operand' : ExprParser} [expr.Grows]
  [operand.Grows]

section

variable [ha : Alike n d expr expr']

instance : Alike n d (entry expr) (entry expr') := by
  unfold entry
  infer_instance

theorem alike_primary : Alike (n + 1) d (primary expr) (primary expr') := by
  unfold primary branch binding lambda
  refine .peek fun k => ?_
  split
  case h_14 => exact Alike.at_kind inferInstance
  all_goals exact .take (by simp) fun _ => inferInstance

theorem alike_suffixes (fuel : Nat) (e : Expr) :
    Alike (n + 1) d (suffixes expr fuel e) (suffixes expr' fuel e) := by
  induction fuel generalizing e with
  | zero => unfold suffixes; infer_instance
  | succ fuel ih =>
    have hrest (e : Expr) : Alike n d (suffixes expr fuel e) (suffixes expr' fuel e) :=
      (ih e).mono (Nat.le_succ n)
    unfold suffixes
    refine .peek fun k => ?_
    split
    · exact .take (by simp) fun _ => inferInstance
    · exact .take (by simp) fun _ => inferInstance
    · exact .take (by simp) fun _ => inferInstance
    · exact Alike.at_kind inferInstance

theorem alike_suffixed : Alike (n + 1) d (suffixed expr) (suffixed expr') :=
  .bind alike_primary fun e => .bind inferInstance fun s => alike_suffixes s.rest.length e

/-- What an operator is in front of is one level deeper. -/
theorem alike_unary (hd : d < maxNesting → Alike n (d + 1) deeper deeper') [deeper.Grows] :
    Alike (n + 1) d (unary expr deeper) (unary expr' deeper') := by
  have hnested : Alike n d (nested deeper) (nested deeper') := .nested_of_lt hd
  unfold unary unary.signed
  refine .peek fun k => ?_
  split
  · exact .take (by simp) fun _ => inferInstance
  · exact .take (by simp) fun _ => inferInstance
  · exact alike_suffixed.at_kind

end

instance (table : Symbol → Option BinaryOp) : Alike n d (joining table) (joining table) := by
  unfold joining
  infer_instance

instance : Alike n d coalescing coalescing := by
  unfold coalescing
  infer_instance

instance (w : Token.Keyword) (op : BinaryOp) : Alike n d (wordOp w op) (wordOp w op) := by
  unfold wordOp
  infer_instance

instance : Alike n d chained chained := by
  refine .bind inferInstance fun k => ?_
  split <;> infer_instance

section

variable [ha : Alike n d operand operand']

instance : Alike n d (sum operand) (sum operand') := by
  unfold sum
  infer_instance

instance : Alike n d (comparison operand) (comparison operand') := by
  unfold comparison
  refine .bind inferInstance fun left => .bind inferInstance fun join => ?_
  cases join <;> infer_instance

instance : Alike n d (disjunction operand) (disjunction operand') := by
  unfold disjunction
  infer_instance

end

end

/-! ## Loops -/

/-- A member, an index or a call after an operand. -/
def suffixesRound (expr : ExprParser) : Expr → Workbook.Parser (Expr ⊕ Expr) :=
  Workbook.Parser.suffixesRound Expr.span (fun e k => .member (e.span.merge k.span) e k) .index .call
    expr expr

section

variable {n d : Nat} {expr : ExprParser}

theorem suffixes_unfolds (n : Nat) (e : Expr) : suffixes expr (n + 1) e =
    suffixesRound expr e >>= fun o => o.elim (suffixes expr n) pure := by
  unfold suffixesRound Workbook.Parser.suffixesRound
  rw [suffixes]
  simp only [bind_assoc]
  refine bind_congr fun k => ?_
  split <;> simp

theorem consumes_joining (table : Symbol → Option BinaryOp) :
    Consumes (·.isSome = true) (joining table) := by
  refine .bind (Consumes.operator table) inferInstance fun o ho => ?_
  cases o with
  | none => exact .pure (by simp)
  | some op => exact absurd rfl ho

theorem consumes_chained : Consumes (·.isSome = true) chained := by
  refine .peek fun k => ?_
  split
  · split
    · exact Consumes.at_kind (.later fun _ => consumes_joining comparisonOp)
    · exact (consumes_joining comparisonOp).at_kind
  · exact (consumes_joining comparisonOp).at_kind

theorem consumes_coalescing : Consumes (·.isSome = true) coalescing := by
  refine .bind (Consumes.eats (by simp)) inferInstance fun b hb => ?_
  rw [if_neg hb]
  exact .pure (by simp)

theorem consumes_wordOp (w : Token.Keyword) (op : BinaryOp) :
    Consumes (·.isSome = true) (wordOp w op) := by
  refine .bind (Consumes.eats (by simp)) inferInstance fun b hb => ?_
  rw [if_neg hb]
  exact .pure (by simp)

end

/-! ## Recursion -/

/-- The functions of the parser that call each other: an expression one level deeper, and an operand. -/
structure Functions where
  expr : ExprParser
  operand : ExprParser

/-- The functions, with these for the ones that they call. -/
def Functions.again (f : Functions) : Functions :=
  let operand := unary f.expr f.operand
  ⟨nested (disjunction operand), operand⟩

/-- The functions, which call each other at most `k` deep; `out` is done in place of a deeper call. -/
def Functions.unrolled (out : Functions) : Nat → Functions
  | 0 => out
  | k + 1 => (out.unrolled k).again

/-- What is read behind an operator of a level. -/
def below : Nat → Level
  | 0 => ⟨reject (.tooDeep maxNesting), reject (.tooDeep maxNesting)⟩
  | m + 1 => level m

theorem grows_below (m : Nat) : (below m).operand.Grows := by
  cases m with
  | zero => exact inferInstanceAs (reject (.tooDeep maxNesting) : ExprParser).Grows
  | succ m => exact (grows_level m).2

theorem operand_level (m : Nat) :
    (level m).operand = unary (level m).expr (below m).operand := by
  cases m <;> rfl

/-- Where at most `n` tokens are ahead, the functions do what the parsers of a level do. -/
structure Functions.Like (f : Functions) (n d m : Nat) : Prop where
  expr : Alike n d (level m).expr f.expr
  operand : Alike n d (level m).operand f.operand

/-- The functions are called behind a token, or one level deeper. -/
theorem Functions.Like.again {f : Functions} {n : Nat}
    (h : ∀ {d m}, d + m = maxNesting → f.Like n d m) {d m : Nat} (hd : d + m = maxNesting) :
    f.again.Like (n + 1) d m := by
  have hoperand {d m : Nat} (hd : d + m = maxNesting) :
      Alike (n + 1) d (level m).operand f.again.operand := by
    have : (level m).expr.Grows := (grows_level m).1
    have : (below m).operand.Grows := grows_below m
    have : Alike n d (level m).expr f.expr := (h hd).expr
    rw [operand_level]
    refine alike_unary fun hlt => ?_
    cases m with
    | zero => omega
    | succ m => exact (h (by omega)).operand
  refine ⟨?_, hoperand hd⟩
  cases m with
  | zero => exact .tooDeep (by omega)
  | succ m =>
    have : (level m).operand.Grows := (grows_level m).2
    have : Alike (n + 1) (d + 1) (level m).operand f.again.operand := hoperand (by omega)
    have hexpr : Alike (n + 1) d (nested (disjunction (level m).operand))
      (nested (disjunction f.again.operand)) := inferInstance
    exact hexpr

/-- A function that is called inside another has at least a token less ahead, so no call is deeper than
there are tokens ahead. -/
theorem like_unrolled (out : Functions) (k : Nat) {d m : Nat} (hd : d + m = maxNesting) :
    (out.unrolled k).Like k d m := by
  induction k generalizing d m with
  | zero => exact ⟨.zero, .zero⟩
  | succ k ih => exact .again ih hd

/-- The parsers of a level leave the token that marks the end. -/
theorem alike_level (m : Nat) : (∀ n d, Alike n d (level m).expr (level m).expr) ∧
    ∀ n d, Alike n d (level m).operand (level m).operand := by
  have hunary {expr deeper : ExprParser} [expr.Grows] [deeper.Grows]
      (he : ∀ n d, Alike n d expr expr) (hd : ∀ n d, Alike n d deeper deeper) (n d : Nat) :
      Alike n d (unary expr deeper) (unary expr deeper) := by
    cases n with
    | zero => exact .zero
    | succ n =>
      have := he n d
      exact alike_unary fun _ => hd n (d + 1)
  induction m with
  | zero =>
    have hreject (n d : Nat) : Alike n d (reject (.tooDeep maxNesting) : ExprParser)
        (reject (.tooDeep maxNesting)) := inferInstance
    exact ⟨hreject, hunary hreject hreject⟩
  | succ m ih =>
    have : (level (m + 1)).expr.Grows := (grows_level (m + 1)).1
    have : (level m).operand.Grows := (grows_level m).2
    have hexpr (n d : Nat) : Alike n d (level (m + 1)).expr (level (m + 1)).expr := by
      have := ih.2 n (d + 1)
      exact inferInstanceAs (Alike n d (nested (disjunction (level m).operand)) (nested _))
    exact ⟨hexpr, hunary hexpr ih.2⟩

end Parser
end Formula
end Workbook
