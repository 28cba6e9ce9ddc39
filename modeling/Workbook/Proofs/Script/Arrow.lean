/-
When the parser of scripts takes an expression for an arrow function.

It looks for an arrow behind the parentheses that open the expression.  In what the grammar says,
parentheses are balanced (`balanced_level`, `balanced_statement`), so what is inside of them does not
matter (`Balanced`).  An arrow function has an arrow there (`arrowIn_arrow`), and other expressions
have none, unless an arrow follows them (`plain_conditional`).
-/
import Workbook.Proofs.Script.Derivation

namespace Workbook
namespace Script
namespace Grammar

open Token (Kind Symbol)
open Workbook.Parser (Phrase Operands Chain Listed Items Holes Named Parameters Starts nameText?
  memberText? keyText?)
open Script.Parser (signOp stepOp assignOp declarator? arrowAfter)

/-! ## Balanced parentheses -/

/-- Whether the look for an arrow goes past a token. -/
def passedOver : Kind → Bool
  | .symbol .leftParen | .symbol .rightParen | .endOfInput => false
  | _ => true

/-- Between parentheses, the tokens do not change what follows these. -/
def Balanced (ts : List Token) : Prop :=
  ∀ opened rest, arrowAfter (opened + 1) (ts ++ rest) = arrowAfter (opened + 1) rest

namespace Balanced

variable {ts us : List Token} {t : Token} {k : Kind} {span span' : Span}

theorem nil : Balanced [] := fun _ _ => rfl

theorem append (h : Balanced ts) (h' : Balanced us) : Balanced (ts ++ us) := by
  intro opened rest
  rw [List.append_assoc, h, h']

theorem cons (ht : passedOver t.kind = true) (h : Balanced ts) : Balanced (t :: ts) := by
  intro opened rest
  rw [← h opened rest, List.cons_append]
  obtain ⟨k, span⟩ := t
  cases k with
  | symbol x => cases x <;> first | rfl | cases ht
  | endOfInput => cases ht
  | _ => rfl

theorem one (hk : passedOver k = true) : Balanced [⟨k, span⟩] :=
  cons hk nil

theorem parens (h : Balanced ts) (h' : Balanced us) :
    Balanced (⟨.symbol .leftParen, span⟩ :: (ts ++ ⟨.symbol .rightParen, span'⟩ :: us)) := by
  intro opened rest
  rw [← h' opened rest, List.cons_append, List.append_assoc]
  show arrowAfter (opened + 1 + 1) (ts ++ (⟨.symbol .rightParen, span'⟩ :: us ++ rest)) = _
  rw [h (opened + 1)]
  show (if opened + 1 + 1 ≤ 1 then (us ++ rest).head?.any (·.kind = .symbol .arrow)
    else arrowAfter (opened + 1) (us ++ rest)) = _
  rw [if_neg (by omega)]

end Balanced

/-- Whatever is written is balanced. -/
def AllBalanced {α : Type} (P : Phrase α) : Prop :=
  ∀ ⦃ts a⦄, P ts a → Balanced ts

section Texts

variable {k : Kind}

theorem passedOver_memberText {s : String} (h : memberText? k = some s) : passedOver k = true := by
  cases k <;> first | rfl | cases h

theorem passedOver_keyText {s : String} (h : keyText? k = some s) : passedOver k = true := by
  cases k <;> first | rfl | cases h

theorem passedOver_signOp {op : UnaryOp} (h : signOp k = some op) : passedOver k = true := by
  cases k with
  | symbol x => cases x <;> first | rfl | cases h
  | endOfInput => cases h
  | _ => rfl

theorem passedOver_stepOp {b : Bool} (h : stepOp k = some b) : passedOver k = true := by
  cases k with
  | symbol x => cases x <;> first | rfl | cases h
  | endOfInput => cases h
  | _ => rfl

theorem passedOver_joins {n : Nat} {join : Expr → Expr → Expr} (h : joins n k = some join) :
    passedOver k = true := by
  cases k with
  | symbol x => cases x <;> first | rfl | (simp [joins, between?] at h)
  | endOfInput => simp [joins, between?] at h
  | _ => rfl

theorem passedOver_assignOp {x : Symbol} {op : AssignOp} (h : assignOp x = some op) :
    passedOver (.symbol x) = true := by
  cases x <;> first | rfl | cases h

theorem passedOver_declarator {how : Declarator} (h : declarator? k = some how) :
    passedOver k = true := by
  cases k with
  | symbol x => cases h
  | endOfInput => cases h
  | _ => rfl

end Texts

/-! ## What the grammar says is balanced -/

section Shared

variable {α : Type} {P : Phrase α}

theorem balanced_named {text? : Kind → Option String}
    (h : ∀ {k s}, text? k = some s → passedOver k = true) : AllBalanced (Named text?) := by
  intro ts a ha
  cases ha with
  | mk hk => exact .one (h hk)

theorem balanced_listed (h : AllBalanced P) : AllBalanced (Listed P) := by
  intro ts as has
  induction has with
  | nil => exact .nil
  | one ha => exact h ha
  | cons ha _ ih => exact (h ha).append (.cons rfl ih)

theorem balanced_items (h : AllBalanced P) : AllBalanced (Items P) := by
  intro ts i hi
  cases hi with
  | one ha => exact h ha
  | spread ha => exact .cons rfl (h ha)

theorem balanced_holes (h : AllBalanced P) : AllBalanced (Holes P) := by
  intro ts ps hps
  induction hps with
  | last ha => exact .cons rfl ((h ha).append (.cons rfl (.one rfl)))
  | more ha _ ih => exact .cons rfl ((h ha).append (.cons rfl (.cons rfl ih)))

theorem balanced_parameters : AllBalanced Parameters := by
  intro ts ps hp
  cases hp with
  | mk hl =>
    have hnames : AllBalanced (Named nameText?) := balanced_named fun {k s} hk => by
      cases k <;> first | rfl | cases hk
    exact .parens (balanced_listed hnames hl) .nil

end Shared

section Expressions

variable {E P W U : Phrase Expr} {B : Phrase (List Stmt)}

theorem balanced_function (hB : AllBalanced B) : AllBalanced (FunctionPhrase B) := by
  intro ts f hf
  cases hf with
  | named hp hb => exact .cons rfl (.cons rfl ((balanced_parameters hp).append (hB hb)))
  | unnamed hp hb => exact .cons rfl ((balanced_parameters hp).append (hB hb))

theorem balanced_arrowBody (hE : AllBalanced E) (hB : AllBalanced B) :
    AllBalanced (ArrowBody E B) := by
  intro ts b hb
  cases hb with
  | block hb => exact hB hb
  | expr he _ => exact hE he

theorem balanced_arrow (hE : AllBalanced E) (hB : AllBalanced B) : AllBalanced (Arrow E B) := by
  intro ts e he
  cases he with
  | single hb => exact .cons rfl (.cons rfl (balanced_arrowBody hE hB hb))
  | listed hp hb =>
    exact (balanced_parameters hp).append (.cons rfl (balanced_arrowBody hE hB hb))

theorem balanced_entries (hE : AllBalanced E) (hB : AllBalanced B) : AllBalanced (Entries E B) := by
  intro ts e he
  cases he with
  | spread he => exact .cons rfl (hE he)
  | short => exact .one rfl
  | field hk he => exact .cons (passedOver_keyText hk) (.cons rfl (hE he))
  | method hk hp hb =>
    exact .cons (passedOver_keyText hk) ((balanced_parameters hp).append (hB hb))

theorem balanced_primary (hE : AllBalanced E) (hB : AllBalanced B) : AllBalanced (Primary E B) := by
  intro ts e he
  cases he with
  | template hp => exact .cons rfl (balanced_holes hE hp)
  | function hf => exact balanced_function hB hf
  | array hl => exact .cons rfl ((balanced_listed (balanced_items hE) hl).append (.one rfl))
  | object hl => exact .cons rfl ((balanced_listed (balanced_entries hE hB) hl).append (.one rfl))
  | parenthesized he => exact .parens (hE he) .nil
  | _ => exact .one rfl

theorem balanced_suffixed (hE : AllBalanced E) (hB : AllBalanced B) :
    AllBalanced (Suffixed E B) := by
  intro ts e he
  induction he with
  | primary hp => exact balanced_primary hE hB hp
  | member _ hk ih => exact ih.append (.cons rfl (.one (passedOver_memberText hk)))
  | index _ hk ih => exact ih.append (.cons rfl ((hE hk).append (.one rfl)))
  | call _ ha ih => exact ih.append (.parens (balanced_listed (balanced_items hE) ha) .nil)

theorem balanced_updated (hE : AllBalanced E) (hB : AllBalanced B) : AllBalanced (Updated E B) := by
  intro ts e he
  cases he with
  | suffixed hs => exact balanced_suffixed hE hB hs
  | step hs hk _ _ => exact (balanced_suffixed hE hB hs).append (.one (passedOver_stepOp hk))

theorem balanced_prefixed (hE : AllBalanced E) (hB : AllBalanced B) (hU : AllBalanced U) :
    AllBalanced (Prefixed E B U) := by
  intro ts e he
  induction he with
  | updated hu => exact balanced_updated hE hB hu
  | sign hk hu => exact .cons (passedOver_signOp hk) (hU hu)
  | step hk _ _ ih => exact .cons (passedOver_stepOp hk) ih

theorem balanced_power (hP : AllBalanced P) (hW : AllBalanced W) : AllBalanced (Power P W) := by
  intro ts e he
  cases he with
  | one hp => exact hP hp
  | pow hb hp => exact (hP hb).append (.cons rfl (hW hp))

theorem balanced_coalesced (hP : AllBalanced P) : AllBalanced (Coalesced P) := by
  have hoperands {n : Nat} {Q : Bool → Phrase Expr} (hQ : ∀ reaches, AllBalanced (Q reaches))
      (reaches : Bool) : AllBalanced (Operands (joins n) Q reaches) := by
    intro ts e he
    induction he with
    | one hq => exact hQ _ hq
    | more _ hk hq ih => exact ih.append (.cons (passedOver_joins hk) (hQ _ hq))
  have hchain {n : Nat} {Q : Phrase Expr} (hQ : AllBalanced Q) : AllBalanced (Chain (joins n) Q) :=
    hoperands (fun _ => hQ) false
  exact hchain (hchain (hchain (hchain (hchain (hchain (hchain hP))))))

theorem balanced_conditional (hE : AllBalanced E) (hP : AllBalanced P) :
    AllBalanced (Conditional E P) := by
  intro ts e he
  cases he with
  | one hc => exact balanced_coalesced hP hc
  | choice hc hy hn =>
    exact (balanced_coalesced hP hc).append (.cons rfl ((hE hy).append (.cons rfl (hE hn))))

theorem balanced_assignment (hE : AllBalanced E) (hB : AllBalanced B) (hP : AllBalanced P) :
    AllBalanced (Assignment E B P) := by
  intro ts e he
  cases he with
  | arrow ha => exact balanced_arrow hE hB ha
  | conditional hc => exact balanced_conditional hE hP hc
  | assign ht _ hop hv =>
    exact (balanced_conditional hE hP ht).append (.cons (passedOver_assignOp hop) (hE hv))

end Expressions

section Statements

variable {E : Phrase Expr} {C : Clause Stmt} {S : Bool → Clause Stmt} {lines loop : Bool}
  {ts : List Token} {next : Token} (hE : AllBalanced E)

theorem balanced_ends {before : Span} (h : Ends lines before ts next) : Balanced ts := by
  cases h with
  | semicolon => exact .one rfl
  | _ => exact .nil

theorem balanced_statements (hC : ∀ {ts s next}, C ts s next → Balanced ts) {body : List Stmt}
    (h : Statements C ts body next) : Balanced ts := by
  induction h with
  | nil => exact .nil
  | cons hs _ ih => exact (hC hs).append ih

theorem balanced_braced (hC : ∀ {ts s next}, C ts s next → Balanced ts) :
    AllBalanced (Braced C) := by
  intro ts body h
  cases h with
  | mk hs => exact .cons rfl ((balanced_statements hC hs).append (.one rfl))

include hE

theorem balanced_declaration : AllBalanced (Declaration E) := by
  intro ts d h
  cases h with
  | value hk hv => exact .cons (passedOver_declarator hk) (.cons rfl (.cons rfl (hE hv)))
  | bare => exact .cons rfl (.one rfl)

theorem balanced_possibly : AllBalanced (Possibly E) := by
  intro ts o h
  cases h with
  | none => exact .nil
  | some he => exact hE he

theorem balanced_loopStart : AllBalanced (LoopStart E) := by
  intro ts o h
  cases h with
  | none => exact .nil
  | declaration hd => exact balanced_declaration hE hd
  | expr he => exact hE he

theorem balanced_rule (hS : ∀ {loop ts s next}, S loop ts s next → Balanced ts) {s : Stmt}
    (h : Rule E lines S loop ts s next) : Balanced ts := by
  cases h with
  | declaration hd he => exact (balanced_declaration hE hd).append (balanced_ends he)
  | function hp hb =>
    exact .cons rfl (.cons rfl ((balanced_parameters hp).append (balanced_braced hS hb)))
  | ifThen hc hy _ => exact .cons rfl (.parens (hE hc) (hS hy))
  | ifElse hc hy hn =>
    exact .cons rfl (.parens (hE hc) ((hS hy).append (.cons rfl (hS hn))))
  | whileLoop hc hb => exact .cons rfl (.parens (hE hc) (hS hb))
  | @forLoop _ ss cs ps bs _ opening mark mark' closing _ _ _ _ _ hs hc hp hb =>
    have hhead : Balanced (ss ++ ⟨.symbol .semicolon, mark⟩ ::
        (cs ++ ⟨.symbol .semicolon, mark'⟩ :: ps)) :=
      (balanced_loopStart hE hs).append
        (.cons rfl ((balanced_possibly hE hc).append (.cons rfl (balanced_possibly hE hp))))
    have hall : Balanced (⟨.symbol .leftParen, opening⟩ :: ((ss ++ ⟨.symbol .semicolon, mark⟩ ::
        (cs ++ ⟨.symbol .semicolon, mark'⟩ :: ps)) ++ ⟨.symbol .rightParen, closing⟩ :: bs)) :=
      .parens hhead (hS hb)
    simp only [List.append_assoc, List.cons_append] at hall
    exact .cons rfl hall
  | @forOf _ is _ k _ key _ _ declared span of _ _ _ _ hk hi hb =>
    have hhead : Balanced (⟨k, declared⟩ :: ⟨.name key, span⟩ :: ⟨.word .ofWord, of⟩ :: is) :=
      .cons (passedOver_declarator hk) (.cons rfl (.cons rfl (hE hi)))
    exact .cons rfl (.parens hhead (hS hb))
  | returns hv _ he => exact .cons rfl ((hE hv).append (balanced_ends he))
  | returnsNothing he | breaks he | continues he => exact .cons rfl (balanced_ends he)
  | throws hv he => exact .cons rfl ((hE hv).append (balanced_ends he))
  | block hb => exact .cons rfl ((balanced_statements hS hb).append (.one rfl))
  | empty => exact .one rfl
  | expr he _ hends => exact (hE he).append (balanced_ends hends)

theorem balanced_statement {n : Nat} {s : Stmt} (h : Statement E lines n loop ts s next) :
    Balanced ts := by
  induction n generalizing loop ts s next with
  | zero => exact h.elim
  | succ n ih => exact balanced_rule hE ih h

theorem balanced_block : AllBalanced (Block E lines) := by
  rintro ts body ⟨n, h⟩
  exact balanced_braced (balanced_statement hE) h

end Statements

theorem balanced_over {E W U : Phrase Expr} (lines : Bool) (hE : AllBalanced E) (hW : AllBalanced W)
    (hU : AllBalanced U) : AllBalanced (Level.over lines E W U).expr ∧
      AllBalanced (Level.over lines E W U).power ∧ AllBalanced (Level.over lines E W U).operand := by
  have hblock : AllBalanced (Block E lines) := balanced_block hE
  have hoperand := balanced_prefixed hE hblock hU
  exact ⟨hE, balanced_power hoperand hW, hoperand⟩

theorem balanced_nothing {α : Type} : AllBalanced (fun _ _ => False : Phrase α) :=
  fun _ _ h => h.elim

theorem balanced_level (lines : Bool) (n : Nat) : AllBalanced (level lines n).expr ∧
    AllBalanced (level lines n).power ∧ AllBalanced (level lines n).operand := by
  induction n with
  | zero => exact balanced_over lines balanced_nothing balanced_nothing balanced_nothing
  | succ n ih =>
    obtain ⟨hE, hP, hO⟩ := ih
    have hblock : AllBalanced (Block (level lines n).expr lines) := balanced_block hE
    exact balanced_over lines (balanced_assignment hE hblock hP) hP hO

/-! ## The look for an arrow -/

/-- Whether the parser takes the tokens for an arrow function. -/
def arrowIn : List Token → Bool
  | [] => false
  | t :: rest =>
    match t.kind with
    | .name _ => rest.head?.any (·.kind = .symbol .arrow)
    | .symbol .leftParen => arrowAfter 0 (t :: rest)
    | _ => false

theorem arrowAhead_eq (s : Workbook.Parser.State) :
    Script.Parser.arrowAhead s = arrowIn s.rest := by
  obtain ⟨rest, previous, problems, depth, loops⟩ := s
  cases rest with
  | nil => rfl
  | cons t rest =>
    obtain ⟨k, span⟩ := t
    cases k with
    | name text =>
      show decide (Option.getD (Option.map Token.kind (rest[0]?)) .endOfInput = .symbol .arrow) = _
      cases rest <;> rfl
    | symbol x => cases x <;> rfl
    | _ => rfl

/-- The parser does not take the tokens for an arrow function, unless an arrow follows them. -/
def Plain (ts : List Token) : Prop :=
  ∀ rest : List Token, rest.head?.any (·.kind = .symbol .arrow) = false → arrowIn (ts ++ rest) = false

namespace Plain

variable {ts us : List Token} {t : Token} {span span' : Span}

theorem append (h : Plain ts) (ht : t.kind ≠ .symbol .arrow) : Plain (ts ++ t :: us) := by
  intro rest _
  rw [List.append_assoc]
  exact h _ (decide_eq_false ht)

/-- An arrow function begins with a name or a parenthesis. -/
theorem of_first {k : Kind} (hname : k.isName = false) (hparen : k ≠ .symbol .leftParen) :
    Plain (⟨k, span⟩ :: ts) := by
  intro rest _
  cases k with
  | name text => cases hname
  | symbol x => cases x <;> first | rfl | exact absurd rfl hparen
  | _ => rfl

theorem name {text : String} : Plain [⟨.name text, span⟩] :=
  fun _ h => h

theorem parens (h : Balanced ts) :
    Plain (⟨.symbol .leftParen, span⟩ :: (ts ++ [⟨.symbol .rightParen, span'⟩])) := by
  intro rest hrest
  rw [List.cons_append, List.append_assoc]
  show arrowAfter (0 + 1) (ts ++ ([⟨.symbol .rightParen, span'⟩] ++ rest)) = false
  rw [h]
  exact hrest

end Plain

/-- Nothing that is written is taken for an arrow function. -/
def AllPlain {α : Type} (P : Phrase α) : Prop :=
  ∀ ⦃ts a⦄, P ts a → Plain ts

section Plain

variable {E P W U : Phrase Expr} {B : Phrase (List Stmt)}

theorem plain_primary (hE : AllBalanced E) : AllPlain (Primary E B) := by
  intro ts e he
  cases he with
  | name => exact .name
  | parenthesized he => exact .parens (hE he)
  | function hf => cases hf <;> exact .of_first rfl (by simp)
  | _ => exact .of_first rfl (by simp)

theorem plain_suffixed (hE : AllBalanced E) : AllPlain (Suffixed E B) := by
  intro ts e he
  induction he with
  | primary hp => exact plain_primary hE hp
  | member _ _ ih | index _ _ ih | call _ _ ih => exact ih.append (by simp)

theorem plain_prefixed (hE : AllBalanced E) : AllPlain (Prefixed E B U) := by
  intro ts e he
  cases he with
  | updated hu => cases hu with
    | suffixed hs => exact plain_suffixed hE hs
    | step hs hk _ _ =>
      refine (plain_suffixed hE hs).append ?_
      rintro rfl
      cases hk
  | @sign _ k _ _ _ hk _ =>
    refine .of_first (by cases k <;> first | rfl | cases hk) ?_
    rintro rfl
    cases hk
  | @step _ k _ _ _ hk _ _ =>
    refine .of_first (by cases k <;> first | rfl | cases hk) ?_
    rintro rfl
    cases hk

theorem plain_power (hP : AllPlain P) : AllPlain (Power P W) := by
  intro ts e he
  cases he with
  | one hp => exact hP hp
  | pow hb _ => exact (hP hb).append (by simp)

theorem plain_coalesced (hP : AllPlain P) : AllPlain (Coalesced P) := by
  have hoperands {n : Nat} {Q : Bool → Phrase Expr} (hQ : ∀ reaches, AllPlain (Q reaches))
      (reaches : Bool) : AllPlain (Operands (joins n) Q reaches) := by
    intro ts e he
    induction he with
    | one hq => exact hQ _ hq
    | @more _ _ _ t _ _ _ _ hk _ ih =>
      refine ih.append fun harrow => ?_
      rw [harrow] at hk
      simp [joins, between?] at hk
  have hchain {n : Nat} {Q : Phrase Expr} (hQ : AllPlain Q) : AllPlain (Chain (joins n) Q) :=
    hoperands (fun _ => hQ) false
  exact hchain (hchain (hchain (hchain (hchain (hchain (hchain hP))))))

theorem plain_conditional (hP : AllPlain P) : AllPlain (Conditional E P) := by
  intro ts e he
  cases he with
  | one hc => exact plain_coalesced hP hc
  | choice hc _ _ => exact (plain_coalesced hP hc).append (by simp)

theorem plain_power_level (lines : Bool) (n : Nat) : AllPlain (level lines n).power := by
  cases n with
  | zero => exact plain_power (plain_prefixed fun _ _ h => h.elim)
  | succ n => exact plain_power (plain_prefixed (balanced_level lines (n + 1)).1)

/-- An arrow function is taken for one. -/
theorem arrowIn_arrow {ts rest : List Token} {e : Expr} (h : Arrow E B ts e) :
    arrowIn (ts ++ rest) = true := by
  cases h with
  | single _ => rfl
  | @listed t _ bs arrow _ _ hp _ =>
    cases hp with
    | @mk names _ _ _ hl =>
      have hnames : Balanced names := balanced_listed (balanced_named fun {k s} hk => by
        cases k <;> first | rfl | cases hk) hl
      show arrowAfter (0 + 1) (names ++ [⟨.symbol .rightParen, _⟩] ++
        ⟨.symbol .arrow, arrow⟩ :: bs ++ rest) = true
      rw [List.append_assoc, List.append_assoc, hnames]
      rfl

end Plain

end Grammar
end Script
end Workbook
