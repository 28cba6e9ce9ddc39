/-
How high the trees are that the parsers build.

The parsers limit how deep expressions are nested.  They do not limit how many operands stand in a
row, how many suffixes an operand has, or how deep statements are nested.  So some steps down a tree
are given a weight (`Steps`).  If these count nothing, no tree is higher than what the limit allows,
however long its text is (`tree_height_limited`).

At each level of nesting a rule of the grammar adds at most one step, so the bound is a sum over the
rules of a level (`Formula.Grammar.atMost_operand`, `Script.Grammar.atMost_level`).
-/
import Workbook.Proofs.Parser.Account

namespace Workbook

/-- How much the steps down a tree count that no limit is on: to the left operand of an operator that
can follow itself, to what a member, an index or a call is of, and from a statement to a statement in
it. -/
structure Steps where
  operand : Nat
  object : Nat
  inner : Nat
  deriving DecidableEq

namespace Steps

/-- Every step counts. -/
def all : Steps := ⟨1, 1, 1⟩

/-- The steps that no limit is on do not count. -/
def limited : Steps := ⟨0, 0, 0⟩

@[simp] theorem limited_operand : limited.operand = 0 := rfl

@[simp] theorem limited_object : limited.object = 0 := rfl

@[simp] theorem limited_inner : limited.inner = 0 := rfl

end Steps

/-! ## The height of a tree -/

namespace Formula

/-- Whether the operator can follow itself. -/
def BinaryOp.chains : BinaryOp → Bool
  | .eq | .notEq | .less | .greater | .lessEq | .greaterEq => false
  | _ => true

namespace Expr

mutual

/-- The number of steps that count on a longest way down, with the leaf. -/
def height (w : Steps) : Expr → Nat
  | .null _ | .boolean _ _ | .integer _ _ | .big _ _ | .float _ _ | .string _ _ | .name _ _ => 1
  | .interpolation _ pieces => 1 + heightPieces w pieces
  | .list _ items => 1 + heightItems w items
  | .record _ entries => 1 + heightEntries w entries
  | .member _ object _ => w.object + height w object
  | .index _ object key => max (w.object + height w object) (1 + height w key)
  | .call _ callee arguments => max (w.object + height w callee) (1 + heightAll w arguments)
  | .binary _ op left right =>
    max ((if op.chains then w.operand else 1) + height w left) (1 + height w right)
  | .unary _ _ operand => 1 + height w operand
  | .coalesce _ left right => max (w.operand + height w left) (1 + height w right)
  | .branch _ condition yes no => 1 + max (height w condition) (max (height w yes) (height w no))
  | .binding _ _ value body => 1 + max (height w value) (height w body)
  | .lambda _ _ body => 1 + height w body
  | .parenthesized _ inner => 1 + height w inner

def heightAll (w : Steps) : List Expr → Nat
  | [] => 0
  | e :: rest => max (height w e) (heightAll w rest)

def heightPieces (w : Steps) : List (Piece Expr) → Nat
  | [] => 0
  | .text _ :: rest => heightPieces w rest
  | .hole e :: rest => max (height w e) (heightPieces w rest)

def heightItems (w : Steps) : List (Item Expr) → Nat
  | [] => 0
  | .one e :: rest => max (height w e) (heightItems w rest)
  | .spread e :: rest => max (height w e) (heightItems w rest)

def heightEntries (w : Steps) : List (Entry Expr) → Nat
  | [] => 0
  | .field _ e :: rest => max (height w e) (heightEntries w rest)
  | .spread e :: rest => max (height w e) (heightEntries w rest)

end

attribute [simp] height heightAll heightPieces heightItems heightEntries

end Expr
end Formula

namespace Script

mutual

/-- The number of steps that count on a longest way down, with the leaf. -/
def Expr.height (w : Steps) : Expr → Nat
  | .undefined _ | .null _ | .boolean _ _ | .number _ _ | .string _ _ | .name _ _ => 1
  | .template _ pieces => 1 + heightPieces w pieces
  | .array _ items => 1 + heightItems w items
  | .object _ entries => 1 + heightEntries w entries
  | .member _ object _ => w.object + object.height w
  | .index _ object key => max (w.object + object.height w) (1 + key.height w)
  | .call _ callee arguments => max (w.object + callee.height w) (1 + heightItems w arguments)
  | .unary _ _ operand => 1 + operand.height w
  | .update _ _ _ target => 1 + target.height w
  | .binary _ op left right =>
    max ((if op = .pow then 1 else w.operand) + left.height w) (1 + right.height w)
  | .logical _ _ left right => max (w.operand + left.height w) (1 + right.height w)
  | .conditional _ condition yes no =>
    1 + max (condition.height w) (max (yes.height w) (no.height w))
  | .assign _ _ target value => 1 + max (target.height w) (value.height w)
  | .function f => 1 + f.height w

def heightPieces (w : Steps) : List (Piece Expr) → Nat
  | [] => 0
  | .text _ :: rest => heightPieces w rest
  | .hole e :: rest => max (e.height w) (heightPieces w rest)

def heightItems (w : Steps) : List (Item Expr) → Nat
  | [] => 0
  | .one e :: rest => max (e.height w) (heightItems w rest)
  | .spread e :: rest => max (e.height w) (heightItems w rest)

def heightEntries (w : Steps) : List (Entry Expr) → Nat
  | [] => 0
  | .field _ e :: rest => max (e.height w) (heightEntries w rest)
  | .spread e :: rest => max (e.height w) (heightEntries w rest)

def heightOption (w : Steps) : Option Expr → Nat
  | some e => e.height w
  | none => 0

/-- The height of a function is that of its body. -/
def Function.height (w : Steps) : Function → Nat
  | .mk _ _ body _ => body.height w

def Body.height (w : Steps) : Body → Nat
  | .block body => heightStatements w body
  | .expr e => e.height w

def Stmt.height (w : Steps) : Stmt → Nat
  | .declaration _ _ _ value => 1 + heightOption w value
  | .function f => w.inner + f.height w
  | .branch _ condition yes no =>
    max (1 + condition.height w) (w.inner + max (yes.height w) (heightBranch w no))
  | .whileLoop _ condition body => max (1 + condition.height w) (w.inner + body.height w)
  | .forLoop _ start condition step body =>
    max (1 + max (heightOption w condition) (heightOption w step))
      (w.inner + max (heightBranch w start) (body.height w))
  | .forOf _ _ _ items body => max (1 + items.height w) (w.inner + body.height w)
  | .returns _ value => 1 + heightOption w value
  | .breaks _ | .continues _ | .empty _ => 1
  | .throws _ value => 1 + value.height w
  | .block _ body => w.inner + heightStatements w body
  | .expr e => 1 + e.height w

def heightBranch (w : Steps) : Option Stmt → Nat
  | some s => s.height w
  | none => 0

/-- The height of the highest of several statements. -/
def heightStatements (w : Steps) : List Stmt → Nat
  | [] => 0
  | s :: rest => max (s.height w) (heightStatements w rest)

end

attribute [simp] Expr.height heightPieces heightItems heightEntries heightOption Function.height
  Body.height Stmt.height heightBranch heightStatements

end Script

/-! ## Phrases of a limited height -/

namespace Parser

variable {α : Type}

/-- Whatever is written is at most so high. -/
def AtMost (height : α → Nat) (h : Nat) (P : Phrase α) : Prop :=
  ∀ ⦃ts a⦄, P ts a → height a ≤ h

namespace AtMost

variable {height : α → Nat} {h h' : Nat} {P : Phrase α}

theorem mono (hP : AtMost height h P) (hle : h ≤ h') : AtMost height h' P :=
  fun _ _ ha => Nat.le_trans (hP ha) hle

/-- The highest of several parts. -/
theorem listed {heights : List α → Nat} (hP : AtMost height h P) (nil : heights [] = 0)
    (cons : ∀ a as, heights (a :: as) = max (height a) (heights as)) :
    AtMost heights h (Listed P) := by
  intro ts as has
  induction has with
  | nil => rw [nil]; exact Nat.zero_le h
  | one ha => rw [cons, nil]; exact Nat.max_le.2 ⟨hP ha, Nat.zero_le h⟩
  | cons ha _ ih => rw [cons]; exact Nat.max_le.2 ⟨hP ha, ih⟩

theorem items (hP : AtMost height h P) : AtMost (fun i => height i.content) h (Items P) := by
  intro ts i hi
  cases hi with
  | one ha | spread ha => exact hP ha

/-- The highest of the expressions in a string. -/
theorem holes {heights : List (Piece α) → Nat} (hP : AtMost height h P) (nil : heights [] = 0)
    (text : ∀ s ps, heights (.text s :: ps) = heights ps)
    (hole : ∀ a ps, heights (.hole a :: ps) = max (height a) (heights ps)) {ts : List Token}
    {ps : List (Piece α)} (hps : Holes P ts ps) (s : String) :
    heights (textPiece s ++ ps) ≤ h := by
  have htext (s : String) (ps : List (Piece α)) : heights (textPiece s ++ ps) = heights ps := by
    unfold textPiece
    split
    · rfl
    · exact text s ps
  rw [htext]
  induction hps with
  | @last _ _ t _ _ _ ha =>
    rw [hole]
    have hlast := htext t []
    rw [List.append_nil, nil] at hlast
    rw [hlast]
    exact Nat.max_le.2 ⟨hP ha, Nat.zero_le h⟩
  | more ha _ ih =>
    rw [List.cons_append, hole, htext]
    exact Nat.max_le.2 ⟨hP ha, ih⟩

/-- Operands whose joins are one step higher at the right. -/
theorem operands {P : Bool → Phrase α} {joins : Token.Kind → Option (α → α → α)}
    (hP : ∀ reaches, AtMost height h (P reaches))
    (hjoins : ∀ {k join}, joins k = some join → ∀ a b, height (join a b) ≤
      max (height a) (1 + height b)) (reaches : Bool) :
    AtMost height (h + 1) (Operands joins P reaches) := by
  intro ts a ha
  induction ha with
  | one ha => exact Nat.le_succ_of_le (hP _ ha)
  | more _ operator right ih =>
    have hright := hP _ right
    have hjoin := hjoins operator
    exact Nat.le_trans (hjoin _ _) (Nat.max_le.2 ⟨ih, by omega⟩)

end AtMost
end Parser

/-! ## Formulas -/

namespace Formula
namespace Grammar

open Workbook.Parser (Phrase Operands Listed Items Holes AtMost textPiece)
open Formula.Parser (joined)
open Formula.Expr (height heightAll heightPieces heightItems heightEntries)

variable {E : Phrase Expr} {U : Bool → Phrase Expr} {h : Nat}

section

variable (hE : AtMost (height .limited) h E)
include hE

theorem atMost_items : AtMost (heightItems .limited) h (Listed (Items E)) :=
  hE.items.listed rfl fun i _ => by cases i <;> rfl

theorem atMost_entries (h1 : 1 ≤ h) : AtMost (heightEntries .limited) h (Listed (Entries E)) := by
  have hentry : AtMost (fun entry => entry.content.height .limited) h (Entries E) := by
    intro ts entry he
    cases he with
    | spread he | field _ he => exact hE he
    | short => exact h1
  exact hentry.listed rfl fun entry _ => by cases entry <;> rfl

theorem atMost_primary (h1 : 1 ≤ h) (reaches : Bool) :
    AtMost (height .limited) (h + 1) (Primary E reaches) := by
  intro ts e he
  cases he with
  | @number n _ => cases n <;> exact Nat.le_add_left 1 h
  | string | name | trueWord | falseWord | nullWord => exact Nat.le_add_left 1 h
  | @interpolation _ _ s _ _ hp =>
    have hpieces : heightPieces .limited _ ≤ h :=
      hE.holes rfl (fun _ _ => rfl) (fun _ _ => rfl) hp s
    simp only [height]
    omega
  | list hl =>
    have hitems := atMost_items hE hl
    simp only [height]
    omega
  | record hl =>
    have hentries := atMost_entries hE h1 hl
    simp only [height]
    omega
  | parenthesized hi =>
    have hinner := hE hi
    simp only [height]
    omega
  | branch hc hy hn =>
    have hcondition := hE hc
    have hyes := hE hy
    have hno := hE hn
    simp only [height]
    omega
  | binding hv hb =>
    have hvalue := hE hv
    have hbody := hE hb
    simp only [height]
    omega
  | lambda _ hb =>
    have hbody := hE hb
    simp only [height]
    omega

theorem atMost_suffixed (h1 : 1 ≤ h) (reaches : Bool) :
    AtMost (height .limited) (h + 1) (Suffixed E reaches) := by
  intro ts e he
  induction he with
  | primary hp => exact atMost_primary hE h1 _ hp
  | member _ _ ih =>
    simp only [height, Steps.limited_object]
    omega
  | index _ hk ih =>
    have hkey := hE hk
    simp only [height, Steps.limited_object]
    omega
  | call _ ha ih =>
    have harguments : heightAll .limited _ ≤ h := hE.listed rfl (fun _ _ => rfl) ha
    simp only [height, Steps.limited_object]
    omega

theorem atMost_prefixed (h1 : 1 ≤ h) (hU : ∀ reaches, AtMost (height .limited) h (U reaches))
    (reaches : Bool) : AtMost (height .limited) (h + 1) (Prefixed E U reaches) := by
  intro ts e he
  cases he with
  | suffixed hs => exact atMost_suffixed hE h1 _ hs
  | not hu | neg hu =>
    have hoperand := hU _ hu
    simp only [height]
    omega

end

/-- What the operators between operands make of them. -/
theorem joins_eq {n : Nat} {k : Token.Kind} {join : Expr → Expr → Expr}
    (hjoin : joins n k = some join) :
    (∃ op : BinaryOp, (n ≠ 4 → op.chains = true) ∧ join = joined op) ∨
      join = fun l r => .coalesce (l.span.merge r.span) l r := by
  cases k with
  | symbol x => cases x <;> simp [joins, between?] at hjoin <;> obtain ⟨rfl, rfl⟩ := hjoin <;>
      first
      | exact .inl ⟨_, fun _ => rfl, rfl⟩
      | exact .inl ⟨_, fun hn => absurd rfl hn, rfl⟩
      | exact .inr rfl
  | word w => cases w <;> simp [joins, between?] at hjoin <;> obtain ⟨rfl, rfl⟩ := hjoin <;>
      exact .inl ⟨_, fun _ => rfl, rfl⟩
  | _ => simp [joins, between?] at hjoin

/-- An operator that can follow itself adds a step at the right only. -/
theorem height_join {n : Nat} (hn : n ≠ 4) {k : Token.Kind} {join : Expr → Expr → Expr}
    (hjoin : joins n k = some join) (a b : Expr) : (join a b).height .limited ≤
      max (a.height .limited) (1 + b.height .limited) := by
  obtain ⟨op, hop, rfl⟩ | rfl := joins_eq hjoin
  · simp only [joined, height, hop hn, if_true, Steps.limited_operand]
    omega
  · simp only [height, Steps.limited_operand]
    omega

theorem atMost_comparison (hU : ∀ reaches, AtMost (height .limited) h (U reaches)) (reaches : Bool) :
    AtMost (height .limited) (h + 3) (Comparison U reaches) := by
  have hsum : ∀ reaches, AtMost (height .limited) (h + 2) (Sum U reaches) :=
    .operands (.operands hU (height_join (by decide))) (height_join (by decide))
  intro ts e he
  cases he with
  | one hs => exact (hsum _).mono (Nat.le_succ _) hs
  | two hl hjoin hr =>
    have hleft := hsum _ hl
    have hright := hsum _ hr
    obtain ⟨op, -, rfl⟩ | rfl := joins_eq hjoin
    · simp only [joined, height, Steps.limited_operand]
      split <;> omega
    · simp only [height, Steps.limited_operand]
      omega

theorem atMost_closed (hU : ∀ reaches, AtMost (height .limited) h (U reaches)) :
    AtMost (height .limited) (h + 6) (Closed U) := by
  have hdisjunction : ∀ reaches, AtMost (height .limited) (h + 6) (Disjunction U reaches) :=
    .operands (.operands (.operands (atMost_comparison hU) (height_join (by decide)))
      (height_join (by decide))) (height_join (by decide))
  rintro ts e ⟨reaches, he⟩
  exact hdisjunction reaches he

/-- A level of nesting adds seven steps. -/
theorem atMost_operand (n : Nat) (reaches : Bool) :
    AtMost (height .limited) (7 * n + 2) (Operand n reaches) := by
  induction n generalizing reaches with
  | zero =>
    exact atMost_prefixed (fun _ _ he => he.elim) (Nat.le_refl 1) (fun _ _ _ he => he.elim) reaches
  | succ n ih =>
    have hlevel := atMost_prefixed (atMost_closed ih) (by omega)
      (fun reaches => (ih reaches).mono (by omega)) reaches
    exact hlevel.mono (by omega)

theorem height_written {final : Span} {ts : List Token} {e : Expr} (he : Written final ts e) :
    e.height .limited ≤ 7 * 64 + 1 := by
  cases he with
  | empty => exact Nat.le_add_left 1 _
  | expression he => exact atMost_closed (atMost_operand 63) he

end Grammar
end Formula

/-! ## Scripts -/

namespace Script
namespace Grammar

open Workbook.Parser (Phrase Chain Listed Items AtMost)
open Script.Parser (joined joinedLogically)

variable {E P W U : Phrase Expr} {B : Phrase (List Stmt)} {h : Nat}

section

variable (hE : AtMost (Expr.height .limited) h E) (hB : AtMost (heightStatements .limited) (h + 1) B)

include hB in
theorem height_function {ts : List Token} {f : Function} (hf : FunctionPhrase B ts f) :
    f.height .limited ≤ h + 1 := by
  cases hf with
  | named _ hb | unnamed _ hb => exact hB hb

include hE hB

theorem height_arrowBody {ts : List Token} {b : Body} (hb : ArrowBody E B ts b) :
    b.height .limited ≤ h + 1 := by
  cases hb with
  | block hb => exact hB hb
  | expr he _ => exact Nat.le_succ_of_le (hE he)

theorem atMost_arrow : AtMost (Expr.height .limited) (h + 2) (Arrow E B) := by
  intro ts e he
  cases he with
  | single hb | listed _ hb =>
    have hbody := height_arrowBody hE hB hb
    simp only [Expr.height, Function.height]
    omega

theorem atMost_entries (h1 : 1 ≤ h) :
    AtMost (heightEntries .limited) (h + 2) (Listed (Entries E B)) := by
  have hentry : AtMost (fun entry => entry.content.height .limited) (h + 2) (Entries E B) := by
    intro ts entry he
    cases he with
    | spread he | field _ he => exact Nat.le_add_right_of_le (hE he)
    | short => exact Nat.le_add_right_of_le h1
    | method _ _ hb =>
      have hbody := hB hb
      simp only [Entry.content, Expr.height, Function.height, Body.height]
      omega
  exact hentry.listed rfl fun entry _ => by cases entry <;> rfl

theorem atMost_primary (h1 : 1 ≤ h) : AtMost (Expr.height .limited) (h + 3) (Primary E B) := by
  intro ts e he
  cases he with
  | number | string | name | trueWord | falseWord | nullWord | undefinedWord =>
    exact Nat.le_add_left 1 (h + 2)
  | @template _ s _ _ hp =>
    have hpieces : heightPieces .limited _ ≤ h :=
      hE.holes rfl (fun _ _ => rfl) (fun _ _ => rfl) hp s
    simp only [Expr.height]
    omega
  | function hf =>
    have hfunction := height_function hB hf
    simp only [Expr.height]
    omega
  | array hl =>
    have hitems : heightItems .limited _ ≤ h :=
      hE.items.listed rfl (fun i _ => by cases i <;> rfl) hl
    simp only [Expr.height]
    omega
  | object hl =>
    have hentries := atMost_entries hE hB h1 hl
    simp only [Expr.height]
    omega
  | parenthesized he => exact Nat.le_add_right_of_le (hE he)

theorem atMost_suffixed (h1 : 1 ≤ h) : AtMost (Expr.height .limited) (h + 3) (Suffixed E B) := by
  intro ts e he
  induction he with
  | primary hp => exact atMost_primary hE hB h1 hp
  | member _ _ ih =>
    simp only [Expr.height, Steps.limited_object]
    omega
  | index _ hk ih =>
    have hkey := hE hk
    simp only [Expr.height, Steps.limited_object]
    omega
  | call _ ha ih =>
    have harguments : heightItems .limited _ ≤ h :=
      hE.items.listed rfl (fun i _ => by cases i <;> rfl) ha
    simp only [Expr.height, Steps.limited_object]
    omega

/-- Only what has suffixes can be written to, so `++` and `--` do not follow one another. -/
theorem atMost_prefixed (h1 : 1 ≤ h) (hU : AtMost (Expr.height .limited) (h + 3) U) :
    AtMost (Expr.height .limited) (h + 4) (Prefixed E B U) := by
  have htarget {ts : List Token} {e : Expr} (he : Prefixed E B U ts e) (target : e.isTarget = true) :
      e.height .limited ≤ h + 3 := by
    cases he with
    | updated hu => cases hu with
      | suffixed hs => exact atMost_suffixed hE hB h1 hs
      | step _ _ _ _ => cases target
    | sign _ _ => cases target
    | step _ _ _ => cases target
  intro ts e he
  cases he with
  | updated hu => cases hu with
    | suffixed hs => exact Nat.le_succ_of_le (atMost_suffixed hE hB h1 hs)
    | step hs _ _ _ =>
      have hsuffixed := atMost_suffixed hE hB h1 hs
      simp only [Expr.height]
      omega
  | sign _ hu =>
    have hoperand := hU hu
    simp only [Expr.height]
    omega
  | step _ target hp =>
    have hoperand := htarget hp target
    simp only [Expr.height]
    omega

end

theorem atMost_power (hP : AtMost (Expr.height .limited) h P)
    (hW : AtMost (Expr.height .limited) h W) :
    AtMost (Expr.height .limited) (h + 1) (Power P W) := by
  intro ts e he
  cases he with
  | one hp => exact Nat.le_succ_of_le (hP hp)
  | pow hb hp =>
    have hbase := hP hb
    have hpower := hW hp
    simp only [joined, Expr.height, if_true]
    omega

/-- What the operators between operands make of them. -/
theorem joins_eq {n : Nat} {k : Token.Kind} {join : Expr → Expr → Expr}
    (hjoin : joins n k = some join) :
    (∃ op : BinaryOp, op ≠ .pow ∧ join = joined op) ∨ ∃ op, join = joinedLogically op := by
  cases k with
  | symbol x => cases x <;> simp [joins, between?] at hjoin <;> obtain ⟨rfl, rfl⟩ := hjoin <;>
      first
      | exact .inr ⟨_, rfl⟩
      | exact .inl ⟨_, by decide, rfl⟩
  | _ => simp [joins, between?] at hjoin

/-- An operator adds a step at the right only. -/
theorem height_join {n : Nat} {k : Token.Kind} {join : Expr → Expr → Expr}
    (hjoin : joins n k = some join) (a b : Expr) : (join a b).height .limited ≤
      max (a.height .limited) (1 + b.height .limited) := by
  obtain ⟨op, hop, rfl⟩ | ⟨op, rfl⟩ := joins_eq hjoin
  · simp only [joined, Expr.height, if_neg hop, Steps.limited_operand]
    omega
  · simp only [joinedLogically, Expr.height, Steps.limited_operand]
    omega

theorem atMost_coalesced (hP : AtMost (Expr.height .limited) h P) :
    AtMost (Expr.height .limited) (h + 7) (Coalesced P) := by
  have hchain {n h : Nat} {Q : Phrase Expr} (hQ : AtMost (Expr.height .limited) h Q) :
      AtMost (Expr.height .limited) (h + 1) (Chain (joins n) Q) :=
    .operands (fun _ => hQ) height_join false
  exact hchain (hchain (hchain (hchain (hchain (hchain (hchain hP))))))

theorem atMost_assignment (hE : AtMost (Expr.height .limited) h E)
    (hB : AtMost (heightStatements .limited) (h + 1) B) (hP : AtMost (Expr.height .limited) h P) :
    AtMost (Expr.height .limited) (h + 9) (Assignment E B P) := by
  have hcoalesced := atMost_coalesced hP
  have hconditional : AtMost (Expr.height .limited) (h + 8) (Conditional E P) := by
    intro ts e he
    cases he with
    | one hc => exact Nat.le_succ_of_le (hcoalesced hc)
    | choice hc hy hn =>
      have hcondition := hcoalesced hc
      have hyes := hE hy
      have hno := hE hn
      simp only [Expr.height]
      omega
  intro ts e he
  cases he with
  | arrow ha => exact Nat.le_trans (atMost_arrow hE hB ha) (by omega)
  | conditional hc => exact Nat.le_succ_of_le (hconditional hc)
  | assign ht _ _ hv =>
    have htarget := hconditional ht
    have hvalue := hE hv
    simp only [Expr.height]
    omega

/-! ### Statements -/

section

variable {C : Clause Stmt} {S : Bool → Clause Stmt} {lines : Bool}
  (hE : AtMost (Expr.height .limited) h E)

theorem height_statements (hC : ∀ {ts s next}, C ts s next → s.height .limited ≤ h) {ts : List Token}
    {body : List Stmt} {next : Token} (hbody : Statements C ts body next) :
    heightStatements .limited body ≤ h := by
  induction hbody with
  | nil => exact Nat.zero_le h
  | cons hs _ ih => exact Nat.max_le.2 ⟨hC hs, ih⟩

theorem height_braced (hC : ∀ {ts s next}, C ts s next → s.height .limited ≤ h) {ts : List Token}
    {body : List Stmt} (hbody : Braced C ts body) : heightStatements .limited body ≤ h := by
  cases hbody with
  | mk hs => exact height_statements hC hs

include hE

theorem height_declaration {ts : List Token} {d : Stmt} (hd : Declaration E ts d) :
    d.height .limited ≤ h + 1 := by
  cases hd with
  | value _ hv =>
    have hvalue := hE hv
    simp only [Stmt.height, heightOption]
    omega
  | bare => exact Nat.le_add_left 1 h

theorem height_possibly {ts : List Token} {o : Option Expr} (ho : Possibly E ts o) :
    heightOption .limited o ≤ h := by
  cases ho with
  | none => exact Nat.zero_le h
  | some he => exact hE he

theorem height_loopStart {ts : List Token} {o : Option Stmt} (ho : LoopStart E ts o) :
    heightBranch .limited o ≤ h + 1 := by
  cases ho with
  | none => exact Nat.zero_le _
  | declaration hd => exact height_declaration hE hd
  | expr he =>
    have hexpr := hE he
    simp only [heightBranch, Stmt.height]
    omega

/-- A statement is one step higher than its expressions; the statements in it do not count. -/
theorem height_rule (hS : ∀ {loop ts s next}, S loop ts s next → s.height .limited ≤ h + 1)
    {loop : Bool} {ts : List Token} {s : Stmt} {next : Token} (hs : Rule E lines S loop ts s next) :
    s.height .limited ≤ h + 1 := by
  cases hs with
  | declaration hd _ => exact height_declaration hE hd
  | function _ hb =>
    have hbody := height_braced hS hb
    simp only [Stmt.height, Function.height, Body.height, Steps.limited_inner]
    omega
  | ifThen hc hy _ =>
    have hcondition := hE hc
    have hyes := hS hy
    simp only [Stmt.height, heightBranch, Steps.limited_inner]
    omega
  | ifElse hc hy hn =>
    have hcondition := hE hc
    have hyes := hS hy
    have hno := hS hn
    simp only [Stmt.height, heightBranch, Steps.limited_inner]
    omega
  | whileLoop hc hb =>
    have hcondition := hE hc
    have hbody := hS hb
    simp only [Stmt.height, Steps.limited_inner]
    omega
  | forLoop hs hc hp hb =>
    have hstart := height_loopStart hE hs
    have hcondition := height_possibly hE hc
    have hstep := height_possibly hE hp
    have hbody := hS hb
    simp only [Stmt.height, Steps.limited_inner]
    omega
  | forOf _ hi hb =>
    have hitems := hE hi
    have hbody := hS hb
    simp only [Stmt.height, Steps.limited_inner]
    omega
  | returns hv _ _ =>
    have hvalue := hE hv
    simp only [Stmt.height, heightOption]
    omega
  | throws hv _ =>
    have hvalue := hE hv
    simp only [Stmt.height]
    omega
  | block hb =>
    have hbody := height_statements hS hb
    simp only [Stmt.height, Steps.limited_inner]
    omega
  | expr he _ _ =>
    have hexpr := hE he
    simp only [Stmt.height]
    omega
  | returnsNothing _ | breaks _ | continues _ | empty => exact Nat.le_add_left 1 h

theorem height_statement {n : Nat} {loop : Bool} {ts : List Token} {s : Stmt} {next : Token}
    (hs : Statement E lines n loop ts s next) : s.height .limited ≤ h + 1 := by
  induction n generalizing loop ts s next with
  | zero => exact hs.elim
  | succ n ih => exact height_rule hE ih hs

theorem atMost_block : AtMost (heightStatements .limited) (h + 1) (Block E lines) := by
  rintro ts body ⟨n, hb⟩
  exact height_braced (height_statement hE) hb

end

/-! ### Levels -/

/-- A level of nesting adds fourteen steps. -/
theorem atMost_level (lines : Bool) (n : Nat) :
    AtMost (Expr.height .limited) (14 * n + 1) (level lines n).expr ∧
    AtMost (Expr.height .limited) (14 * n + 6) (level lines n).power ∧
    AtMost (Expr.height .limited) (14 * n + 5) (level lines n).operand := by
  have hover {e : Nat} {E W U : Phrase Expr} (h1 : 1 ≤ e) (hE : AtMost (Expr.height .limited) e E)
      (hW : AtMost (Expr.height .limited) (e + 4) W) (hU : AtMost (Expr.height .limited) (e + 3) U) :
      AtMost (Expr.height .limited) e (Level.over lines E W U).expr ∧
      AtMost (Expr.height .limited) (e + 5) (Level.over lines E W U).power ∧
      AtMost (Expr.height .limited) (e + 4) (Level.over lines E W U).operand := by
    have hblock : AtMost (heightStatements .limited) (e + 1) (Block E lines) := atMost_block hE
    have hoperand := atMost_prefixed hE hblock h1 hU
    exact ⟨hE, atMost_power hoperand hW, hoperand⟩
  induction n with
  | zero =>
    have hnothing {h : Nat} : AtMost (Expr.height .limited) h (fun _ _ => False : Phrase Expr) :=
      fun _ _ he => he.elim
    exact hover (Nat.le_refl 1) hnothing hnothing hnothing
  | succ n ih =>
    obtain ⟨hE, hP, hO⟩ := ih
    have hblock : AtMost (heightStatements .limited) (14 * n + 2) (Block (level lines n).expr lines) :=
      atMost_block hE
    have hexpr := atMost_assignment (hE.mono (by omega)) (hblock.mono (by omega)) hP
    exact hover (by omega) (hexpr.mono (by omega)) (hP.mono (by omega)) (hO.mono (by omega))

theorem height_written {lines : Bool} {ts : List Token} {body : List Stmt} {final : Token}
    (hbody : Written lines ts body final) : heightStatements .limited body ≤ 14 * 64 + 2 := by
  obtain ⟨n, hs⟩ := hbody
  exact height_statements (height_statement (atMost_level lines 64).1) hs

end Grammar
end Script

/-! ## Whole texts -/

/-- No tree that is read is higher than this, where steps count so much. -/
def BoundedBy (w : Steps) (bound : Nat) : Prop :=
  (∀ (s : Source) (e : Formula.Expr), Formula.compile s = .ok e → e.height w ≤ bound) ∧
    ∀ (s : Source) (p : Script.Program), Script.compile s = .ok p →
      Script.heightStatements w p.body ≤ bound

/-- However long a text is, its tree is not higher than the limit on nesting allows, if the steps do
not count that no limit is on. -/
theorem tree_height_limited : BoundedBy .limited (14 * Parser.maxNesting + 2) := by
  refine ⟨fun s e h => ?_, fun s p h => ?_⟩
  · obtain ⟨ts, final, -, -, -, hwritten⟩ := Parser.written_of_compile_formula h
    exact Nat.le_trans (Formula.Grammar.height_written hwritten) (by decide)
  · obtain ⟨ts, final, -, -, -, hwritten⟩ := Parser.written_of_compile_script h
    exact Script.Grammar.height_written hwritten

end Workbook
