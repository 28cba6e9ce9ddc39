/-
The grammar of formulas.

Every rule is a relation between tokens and what they write.  The levels, from the loosest to the
tightest:

* `or`; then `and`; then `??` (`Disjunction`)
* comparisons, at most one in a row (`Comparison`)
* `+` and `-`; then `*`, `/` and `%` (`Sum`)
* `not` and `-` in front of an operand (`Prefixed`)
* members, indexes and calls after an operand (`Suffixed`)
* literals, names, lists, records, parentheses and forms (`Primary`)

The forms `if`, `let` and `fn` reach as far to the right as they can.  So every rule comes with a
truth value that tells whether a phrase ends in a form.  Such a phrase is the last operand wherever
it stands: no operator and no suffix comes after it.

An expression inside of another one, and what a prefix stands in front of, are one level deeper than
what they are in (`Operand`, `Expression`).  How many levels may be open is a number that the grammar
is given.

What is written holds the spans of its tokens, so it tells which tokens every part of it has.
-/
import Workbook.Formula.Parser
import Workbook.Proofs.Parser.Phrase

namespace Workbook
namespace Formula
namespace Grammar

open Token (Kind)
open Workbook.Parser (Phrase Operands Listed Items Holes Named Starts starts_operands nameText?
  memberText? keyText? textPiece)
open Formula.Parser (literal joined)

/-! ## Operators -/

/-- The operators between operands: how tightly each of them holds its operands, and what it makes
of them. -/
def between? : Kind → Option (Nat × (Expr → Expr → Expr))
  | .word .orWord => some (1, joined .or)
  | .word .andWord => some (2, joined .and)
  | .symbol .questionQuestion => some (3, fun l r => .coalesce (l.span.merge r.span) l r)
  | .symbol .eqEq => some (4, joined .eq)
  | .symbol .bangEq => some (4, joined .notEq)
  | .symbol .less => some (4, joined .less)
  | .symbol .greater => some (4, joined .greater)
  | .symbol .lessEq => some (4, joined .lessEq)
  | .symbol .greaterEq => some (4, joined .greaterEq)
  | .symbol .plus => some (5, joined .add)
  | .symbol .minus => some (5, joined .sub)
  | .symbol .star => some (6, joined .mul)
  | .symbol .slash => some (6, joined .div)
  | .symbol .percent => some (6, joined .mod)
  | _ => none

/-- How tightly a token holds the operand before it; what begins a suffix holds it most tightly. -/
def rank : Kind → Nat
  | .symbol .dot | .symbol .leftBracket | .symbol .leftParen => 7
  | k => ((between? k).map Prod.fst).getD 0

/-- The operators of a rank. -/
def joins (n : Nat) (k : Kind) : Option (Expr → Expr → Expr) :=
  match between? k with
  | some (m, join) => if m = n then some join else none
  | none => none

/-! ## Operands

`E` is what an expression is that stands inside of another one. -/

section

variable (E : Phrase Expr)

/-- An entry of a record: a key and a value, a name that stands for both, or three dots before a
record. -/
inductive Entries : Phrase (Entry Expr)
  | spread {ts : List Token} {dots : Span} {e : Expr} (h : E ts e) :
    Entries (⟨.symbol .dotDotDot, dots⟩ :: ts) (.spread e)
  | short {name : String} {span : Span} :
    Entries [⟨.name name, span⟩] (.field ⟨name, span⟩ (.name span name))
  | field {ts : List Token} {k : Kind} {key : String} {span colon : Span} {e : Expr}
    (hk : keyText? k = some key) (h : E ts e) :
    Entries (⟨k, span⟩ :: ⟨.symbol .colon, colon⟩ :: ts) (.field ⟨key, span⟩ e)

/-- What stands for itself.  The forms reach as far as they can. -/
inductive Primary : Bool → Phrase Expr
  | number {n : Token.Literal} {span : Span} : Primary false [⟨.number n, span⟩] (literal span n)
  | string {s : String} {span : Span} : Primary false [⟨.string s, span⟩] (.string span s)
  | interpolation {ts : List Token} {t : Token} {s : String} {first : Span} {ps : List (Piece Expr)}
    (h : Holes E (ts ++ [t]) ps) : Primary false (⟨.stringStart s, first⟩ :: (ts ++ [t]))
      (.interpolation (first.merge t.span) (textPiece s ++ ps))
  | name {s : String} {span : Span} : Primary false [⟨.name s, span⟩] (.name span s)
  | trueWord {span : Span} : Primary false [⟨.word .trueWord, span⟩] (.boolean span true)
  | falseWord {span : Span} : Primary false [⟨.word .falseWord, span⟩] (.boolean span false)
  | nullWord {span : Span} : Primary false [⟨.word .nullWord, span⟩] (.null span)
  | list {ts : List Token} {first last : Span} {items : List (Item Expr)}
    (h : Listed (Items E) ts items) :
    Primary false (⟨.symbol .leftBracket, first⟩ :: (ts ++ [⟨.symbol .rightBracket, last⟩]))
      (.list (first.merge last) items)
  | record {ts : List Token} {first last : Span} {entries : List (Entry Expr)}
    (h : Listed (Entries E) ts entries) :
    Primary false (⟨.symbol .leftBrace, first⟩ :: (ts ++ [⟨.symbol .rightBrace, last⟩]))
      (.record (first.merge last) entries)
  | parenthesized {ts : List Token} {first last : Span} {e : Expr} (h : E ts e) :
    Primary false (⟨.symbol .leftParen, first⟩ :: (ts ++ [⟨.symbol .rightParen, last⟩]))
      (.parenthesized (first.merge last) e)
  | branch {cs ys ns : List Token} {first andThen orElse : Span} {condition yes no : Expr}
    (hc : E cs condition) (hy : E ys yes) (hn : E ns no) :
    Primary true (⟨.word .ifWord, first⟩ :: (cs ++ ⟨.word .thenWord, andThen⟩ ::
        (ys ++ ⟨.word .elseWord, orElse⟩ :: ns)))
      (.branch (first.merge no.span) condition yes no)
  | binding {vs bs : List Token} {key : String} {first span eq within : Span} {value body : Expr}
    (hv : E vs value) (hb : E bs body) :
    Primary true (⟨.word .letWord, first⟩ :: ⟨.name key, span⟩ :: ⟨.symbol .eq, eq⟩ ::
        (vs ++ ⟨.word .inWord, within⟩ :: bs))
      (.binding (first.merge body.span) ⟨key, span⟩ value body)
  | lambda {ps bs : List Token} {first opening closing arrow : Span} {parameters : List Name}
    {body : Expr} (hp : Listed (Named nameText?) ps parameters) (hb : E bs body) :
    Primary true (⟨.word .fnWord, first⟩ :: ⟨.symbol .leftParen, opening⟩ ::
        (ps ++ ⟨.symbol .rightParen, closing⟩ :: ⟨.symbol .arrow, arrow⟩ :: bs))
      (.lambda (first.merge body.span) parameters body)

/-- An operand with members, indexes and calls after it. -/
inductive Suffixed : Bool → Phrase Expr
  | primary {reaches : Bool} {ts : List Token} {e : Expr} (h : Primary E reaches ts e) :
    Suffixed reaches ts e
  | member {ts : List Token} {k : Kind} {key : String} {dot span : Span} {e : Expr}
    (h : Suffixed false ts e) (hk : memberText? k = some key) :
    Suffixed false (ts ++ [⟨.symbol .dot, dot⟩, ⟨k, span⟩])
      (.member (e.span.merge span) e ⟨key, span⟩)
  | index {ts us : List Token} {first last : Span} {e key : Expr} (h : Suffixed false ts e)
    (hk : E us key) :
    Suffixed false
      (ts ++ ⟨.symbol .leftBracket, first⟩ :: (us ++ [⟨.symbol .rightBracket, last⟩]))
      (.index (e.span.merge last) e key)
  | call {ts us : List Token} {first last : Span} {e : Expr} {arguments : List Expr}
    (h : Suffixed false ts e) (ha : Listed E us arguments) :
    Suffixed false
      (ts ++ ⟨.symbol .leftParen, first⟩ :: (us ++ [⟨.symbol .rightParen, last⟩]))
      (.call (e.span.merge last) e arguments)

/-- An operand with operators in front of it; `U` is what such an operator can stand in front of. -/
inductive Prefixed (U : Bool → Phrase Expr) : Bool → Phrase Expr
  | suffixed {reaches : Bool} {ts : List Token} {e : Expr} (h : Suffixed E reaches ts e) :
    Prefixed U reaches ts e
  | not {reaches : Bool} {ts : List Token} {first : Span} {e : Expr} (h : U reaches ts e) :
    Prefixed U reaches (⟨.word .notWord, first⟩ :: ts) (.unary (first.merge e.span) .not e)
  | neg {reaches : Bool} {ts : List Token} {first : Span} {e : Expr} (h : U reaches ts e) :
    Prefixed U reaches (⟨.symbol .minus, first⟩ :: ts) (.unary (first.merge e.span) .neg e)

end

/-! ## Expressions

`U` is what an operand of an operator between operands is. -/

section

variable (U : Bool → Phrase Expr)

def Sum : Bool → Phrase Expr :=
  Operands (joins 5) (Operands (joins 6) U)

/-- Comparisons do not follow one another. -/
inductive Comparison : Bool → Phrase Expr
  | one {reaches : Bool} {ts : List Token} {e : Expr} (h : Sum U reaches ts e) :
    Comparison reaches ts e
  | two {reaches : Bool} {ts us : List Token} {t : Token} {a b : Expr} {join : Expr → Expr → Expr}
    (left : Sum U false ts a) (operator : joins 4 t.kind = some join) (right : Sum U reaches us b) :
    Comparison reaches (ts ++ t :: us) (join a b)

def Disjunction : Bool → Phrase Expr :=
  Operands (joins 1) (Operands (joins 2) (Operands (joins 3) (Comparison U)))

/-- The same whether it reaches as far as it can or not. -/
def Closed : Phrase Expr :=
  fun ts e => ∃ reaches, Disjunction U reaches ts e

end

/-- What an operand is where `n` more levels can be opened. -/
def Operand : Nat → Bool → Phrase Expr
  | 0 => Prefixed (fun _ _ => False) fun _ _ _ => False
  | n + 1 => Prefixed (Closed (Operand n)) (Operand n)

/-- What an expression is for which `n` levels can be opened, the first of them by itself. -/
def Expression : Nat → Phrase Expr
  | 0 => fun _ _ => False
  | n + 1 => Closed (Operand n)

/-- What the tokens of a whole formula write; no tokens write null, at the place of the end. -/
inductive Written (final : Span) : Phrase Expr
  | empty : Written final [] (.null final)
  | expression {ts : List Token} {e : Expr} (h : Expression 64 ts e) :
    Written final ts e

/-! ## Beginnings -/

/-- What an operand can begin with that no prefix is in front of. -/
def opens : Kind → Bool
  | .number _ | .string _ | .stringStart _ | .name _ => true
  | .word .trueWord | .word .falseWord | .word .nullWord => true
  | .word .ifWord | .word .letWord | .word .fnWord => true
  | .symbol .leftBracket | .symbol .leftBrace | .symbol .leftParen => true
  | _ => false

/-- What an operand can begin with. -/
def begins : Kind → Bool
  | .word .notWord | .symbol .minus => true
  | k => opens k

theorem begins_of_opens {k : Kind} (h : opens k = true) : begins k = true := by
  unfold begins
  split
  · rfl
  · rfl
  · exact h

section

variable {E : Phrase Expr} {U : Bool → Phrase Expr} {first : Kind → Bool}

theorem starts_primary (reaches : Bool) : Starts opens (Primary E reaches) := by
  intro ts e h
  cases h <;> exact ⟨_, _, rfl, rfl⟩

theorem starts_suffixed (reaches : Bool) : Starts opens (Suffixed E reaches) := by
  intro ts e h
  induction h with
  | primary h => exact starts_primary _ h
  | member _ _ ih =>
    obtain ⟨t, us, rfl, ht⟩ := ih
    exact ⟨t, _, rfl, ht⟩
  | index _ _ ih =>
    obtain ⟨t, us, rfl, ht⟩ := ih
    exact ⟨t, _, rfl, ht⟩
  | call _ _ ih =>
    obtain ⟨t, us, rfl, ht⟩ := ih
    exact ⟨t, _, rfl, ht⟩

theorem starts_prefixed (reaches : Bool) : Starts begins (Prefixed E U reaches) := by
  intro ts e h
  cases h with
  | suffixed h =>
    obtain ⟨t, us, rfl, ht⟩ := starts_suffixed _ h
    exact ⟨t, us, rfl, begins_of_opens ht⟩
  | not _ => exact ⟨_, _, rfl, rfl⟩
  | neg _ => exact ⟨_, _, rfl, rfl⟩

theorem starts_comparison (h : ∀ reaches, Starts first (U reaches)) (reaches : Bool) :
    Starts first (Comparison U reaches) := by
  have hsum (reaches : Bool) : Starts first (Sum U reaches) :=
    starts_operands (starts_operands h) reaches
  intro ts e hP
  cases hP with
  | one hP => exact hsum _ hP
  | two hP _ _ => exact (hsum _).append hP

theorem starts_closed (h : ∀ reaches, Starts first (U reaches)) : Starts first (Closed U) := by
  intro ts e hP
  obtain ⟨reaches, hP⟩ := hP
  exact starts_operands (starts_operands (starts_operands (starts_comparison h))) reaches hP

theorem starts_operand (n : Nat) (reaches : Bool) : Starts begins (Operand n reaches) := by
  cases n with
  | zero => exact starts_prefixed reaches
  | succ n => exact starts_prefixed reaches

theorem starts_expression (n : Nat) : Starts begins (Expression n) := by
  cases n with
  | zero =>
    intro ts e h
    exact h.elim
  | succ n => exact starts_closed (starts_operand n)

end

end Grammar
end Formula
end Workbook
