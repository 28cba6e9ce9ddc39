/-
The grammar of scripts.

Every rule is a relation between tokens and what they write.  The levels of expressions, from the
loosest to the tightest:

* assignments and arrows; then `? :` (`Assignment`, `Conditional`)
* `??`; then `||`; then `&&`; then equalities; then comparisons; then `+` and `-`; then `*`, `/` and
  `%`, all from left to right (`Coalesced`)
* `**`, which groups to the right (`Power`)
* signs, `!`, `typeof`, `delete`, `++` and `--` in front of an operand (`Prefixed`)
* `++` and `--` after an operand, on its line (`Updated`)
* members, indexes and calls after an operand (`Suffixed`)
* literals, names, lists, objects, functions and parentheses (`Primary`)

An expression inside of another one, what a sign stands in front of and a power are one level deeper
than what they are in (`Level`).

What a statement is depends on the token after it (`Clause`): a statement may end where a line does,
and `if` without `else` is not followed by `else`.  Whether the end of a line ends a statement is a
truth value that the grammar is given.  Statements may be nested as deep as they like
(`Statement`).
-/
import Workbook.Proofs.Parser.Phrase
import Workbook.Script.Parser

namespace Workbook
namespace Script
namespace Grammar

open Token (Kind Symbol)
open Workbook.Parser (Phrase Chain Listed Items Holes Named Parameters Starts starts_operands
  nameText? memberText? keyText? textPiece lastSpan)
open Script.Parser (joined joinedLogically signOp stepOp assignOp declarator?)

/-! ## Operators -/

/-- The operators between operands that group to the left: how tightly each of them holds its
operands, and what it makes of them. -/
def between? : Kind → Option (Nat × (Expr → Expr → Expr))
  | .symbol .questionQuestion => some (3, joinedLogically .coalesce)
  | .symbol .pipePipe => some (4, joinedLogically .or)
  | .symbol .ampAmp => some (5, joinedLogically .and)
  | .symbol .eqEq => some (6, joined .eq)
  | .symbol .bangEq => some (6, joined .notEq)
  | .symbol .eqEqEq => some (6, joined .strictEq)
  | .symbol .bangEqEq => some (6, joined .strictNotEq)
  | .symbol .less => some (7, joined .less)
  | .symbol .greater => some (7, joined .greater)
  | .symbol .lessEq => some (7, joined .lessEq)
  | .symbol .greaterEq => some (7, joined .greaterEq)
  | .symbol .plus => some (8, joined .add)
  | .symbol .minus => some (8, joined .sub)
  | .symbol .star => some (9, joined .mul)
  | .symbol .slash => some (9, joined .div)
  | .symbol .percent => some (9, joined .mod)
  | _ => none

/-- How tightly a token holds the operand before it. -/
def rank : Kind → Nat
  | .symbol .dot | .symbol .leftBracket | .symbol .leftParen => 12
  | .symbol .plusPlus | .symbol .minusMinus => 11
  | .symbol .starStar => 10
  | .symbol .question => 2
  | .symbol .eq | .symbol .plusEq | .symbol .minusEq | .symbol .starEq | .symbol .slashEq
  | .symbol .arrow => 1
  | k => ((between? k).map Prod.fst).getD 0

/-- The operators of a rank that group to the left. -/
def joins (n : Nat) (k : Kind) : Option (Expr → Expr → Expr) :=
  match between? k with
  | some (m, join) => if m = n then some join else none
  | none => none

/-! ## Operands

`E` is what an expression is that stands inside of another one, and `B` is what statements in braces
are. -/

section

variable (E : Phrase Expr) (B : Phrase (List Stmt))

/-- A function behind its word, with a name or without one. -/
inductive FunctionPhrase : Phrase Function
  | named {ps bs : List Token} {first span : Span} {name : String} {params : List Name}
    {body : List Stmt} (hp : Parameters ps params) (hb : B bs body) :
    FunctionPhrase (⟨.word .functionWord, first⟩ :: ⟨.name name, span⟩ :: (ps ++ bs))
      (.mk (some ⟨name, span⟩) params (.block body) (first.merge (lastSpan bs)))
  | unnamed {ps bs : List Token} {first : Span} {params : List Name} {body : List Stmt}
    (hp : Parameters ps params) (hb : B bs body) :
    FunctionPhrase (⟨.word .functionWord, first⟩ :: (ps ++ bs))
      (.mk none params (.block body) (first.merge (lastSpan bs)))

/-- What an arrow makes its value: statements, or an expression that no brace begins. -/
inductive ArrowBody : Phrase Body
  | block {ts : List Token} {body : List Stmt} (h : B ts body) : ArrowBody ts (.block body)
  | expr {ts : List Token} {e : Expr} (h : E ts e)
    (hts : ∀ t ∈ ts.head?, t.kind ≠ .symbol .leftBrace) : ArrowBody ts (.expr e)

/-- A function behind its parameters and an arrow. -/
inductive Arrow : Phrase Expr
  | single {bs : List Token} {name : String} {span arrow : Span} {body : Body}
    (hb : ArrowBody E B bs body) :
    Arrow (⟨.name name, span⟩ :: ⟨.symbol .arrow, arrow⟩ :: bs)
      (.function (.mk none [⟨name, span⟩] body (span.merge (lastSpan bs))))
  | listed {t : Token} {ps bs : List Token} {arrow : Span} {params : List Name} {body : Body}
    (hp : Parameters (t :: ps) params) (hb : ArrowBody E B bs body) :
    Arrow (t :: (ps ++ ⟨.symbol .arrow, arrow⟩ :: bs))
      (.function (.mk none params body (t.span.merge (lastSpan bs))))

/-- An entry of an object: a key and a value, a method, a name that stands for key and value, or three
dots before an object. -/
inductive Entries : Phrase (Entry Expr)
  | spread {ts : List Token} {dots : Span} {e : Expr} (h : E ts e) :
    Entries (⟨.symbol .dotDotDot, dots⟩ :: ts) (.spread e)
  | short {name : String} {span : Span} :
    Entries [⟨.name name, span⟩] (.field ⟨name, span⟩ (.name span name))
  | field {ts : List Token} {k : Kind} {key : String} {span colon : Span} {e : Expr}
    (hk : keyText? k = some key) (h : E ts e) :
    Entries (⟨k, span⟩ :: ⟨.symbol .colon, colon⟩ :: ts) (.field ⟨key, span⟩ e)
  | method {ps bs : List Token} {k : Kind} {key : String} {span : Span} {params : List Name}
    {body : List Stmt} (hk : keyText? k = some key) (hp : Parameters ps params) (hb : B bs body) :
    Entries (⟨k, span⟩ :: (ps ++ bs)) (.field ⟨key, span⟩
      (.function (.mk (some ⟨key, span⟩) params (.block body) (span.merge (lastSpan bs)))))

/-- What stands for itself. -/
inductive Primary : Phrase Expr
  | number {n : Token.Literal} {span : Span} : Primary [⟨.number n, span⟩] (.number span n.toFloat)
  | string {s : String} {span : Span} : Primary [⟨.string s, span⟩] (.string span s)
  | template {ts : List Token} {s : String} {first : Span} {ps : List (Piece Expr)}
    (h : Holes E ts ps) :
    Primary (⟨.stringStart s, first⟩ :: ts) (.template (first.merge (lastSpan ts)) (textPiece s ++ ps))
  | name {s : String} {span : Span} : Primary [⟨.name s, span⟩] (.name span s)
  | trueWord {span : Span} : Primary [⟨.word .trueWord, span⟩] (.boolean span true)
  | falseWord {span : Span} : Primary [⟨.word .falseWord, span⟩] (.boolean span false)
  | nullWord {span : Span} : Primary [⟨.word .nullWord, span⟩] (.null span)
  | undefinedWord {span : Span} : Primary [⟨.word .undefinedWord, span⟩] (.undefined span)
  | function {ts : List Token} {f : Function} (h : FunctionPhrase B ts f) : Primary ts (.function f)
  | array {ts : List Token} {first last : Span} {items : List (Item Expr)}
    (h : Listed (Items E) ts items) :
    Primary (⟨.symbol .leftBracket, first⟩ :: (ts ++ [⟨.symbol .rightBracket, last⟩]))
      (.array (first.merge last) items)
  | object {ts : List Token} {first last : Span} {entries : List (Entry Expr)}
    (h : Listed (Entries E B) ts entries) :
    Primary (⟨.symbol .leftBrace, first⟩ :: (ts ++ [⟨.symbol .rightBrace, last⟩]))
      (.object (first.merge last) entries)
  | parenthesized {ts : List Token} {first last : Span} {e : Expr} (h : E ts e) :
    Primary (⟨.symbol .leftParen, first⟩ :: (ts ++ [⟨.symbol .rightParen, last⟩])) e

/-- An operand with members, indexes and calls after it. -/
inductive Suffixed : Phrase Expr
  | primary {ts : List Token} {e : Expr} (h : Primary E B ts e) : Suffixed ts e
  | member {ts : List Token} {k : Kind} {key : String} {dot span : Span} {e : Expr}
    (h : Suffixed ts e) (hk : memberText? k = some key) :
    Suffixed (ts ++ [⟨.symbol .dot, dot⟩, ⟨k, span⟩]) (.member (e.span.merge span) e ⟨key, span⟩)
  | index {ts us : List Token} {first last : Span} {e key : Expr} (h : Suffixed ts e)
    (hk : E us key) :
    Suffixed (ts ++ ⟨.symbol .leftBracket, first⟩ :: (us ++ [⟨.symbol .rightBracket, last⟩]))
      (.index (e.span.merge last) e key)
  | call {ts us : List Token} {first last : Span} {e : Expr} {arguments : List (Item Expr)}
    (h : Suffixed ts e) (ha : Listed (Items E) us arguments) :
    Suffixed (ts ++ ⟨.symbol .leftParen, first⟩ :: (us ++ [⟨.symbol .rightParen, last⟩]))
      (.call (e.span.merge last) e arguments)

/-- An operand that `++` or `--` may come after, on its line. -/
inductive Updated : Phrase Expr
  | suffixed {ts : List Token} {e : Expr} (h : Suffixed E B ts e) : Updated ts e
  | step {ts : List Token} {k : Kind} {span : Span} {increment : Bool} {e : Expr}
    (h : Suffixed E B ts e) (hk : stepOp k = some increment) (target : e.isTarget = true)
    (line : span.line = (lastSpan ts).line) :
    Updated (ts ++ [⟨k, span⟩]) (.update (e.span.merge span) increment false e)

/-- An operand with operators in front of it; `U` is what a sign can stand in front of. -/
inductive Prefixed (U : Phrase Expr) : Phrase Expr
  | updated {ts : List Token} {e : Expr} (h : Updated E B ts e) : Prefixed U ts e
  | sign {ts : List Token} {k : Kind} {first : Span} {op : UnaryOp} {e : Expr}
    (hk : signOp k = some op) (h : U ts e) :
    Prefixed U (⟨k, first⟩ :: ts) (.unary (first.merge e.span) op e)
  | step {ts : List Token} {k : Kind} {first : Span} {increment : Bool} {e : Expr}
    (hk : stepOp k = some increment) (target : e.isTarget = true) (h : Prefixed U ts e) :
    Prefixed U (⟨k, first⟩ :: ts) (.update (first.merge e.span) increment true e)

end

/-! ## Operators between operands -/

/-- An operand and, behind `**`, a power. -/
inductive Power (P W : Phrase Expr) : Phrase Expr
  | one {ts : List Token} {e : Expr} (h : P ts e) : Power P W ts e
  | pow {ts us : List Token} {stars : Span} {base power : Expr} (hb : P ts base) (hp : W us power) :
    Power P W (ts ++ ⟨.symbol .starStar, stars⟩ :: us) (joined .pow base power)

/-- Powers with all the operators between them that group to the left. -/
def Coalesced (P : Phrase Expr) : Phrase Expr :=
  Chain (joins 3) <| Chain (joins 4) <| Chain (joins 5) <| Chain (joins 6) <| Chain (joins 7) <|
    Chain (joins 8) <| Chain (joins 9) P

section

variable (E : Phrase Expr) (B : Phrase (List Stmt)) (P : Phrase Expr)

/-- A condition with the two values that it chooses from. -/
inductive Conditional : Phrase Expr
  | one {ts : List Token} {e : Expr} (h : Coalesced P ts e) : Conditional ts e
  | choice {cs ys ns : List Token} {mark colon : Span} {condition yes no : Expr}
    (hc : Coalesced P cs condition) (hy : E ys yes) (hn : E ns no) :
    Conditional (cs ++ ⟨.symbol .question, mark⟩ :: (ys ++ ⟨.symbol .colon, colon⟩ :: ns))
      (.conditional (condition.span.merge no.span) condition yes no)

/-- An arrow function, or an expression that a value may be assigned to. -/
inductive Assignment : Phrase Expr
  | arrow {ts : List Token} {e : Expr} (h : Arrow E B ts e) : Assignment ts e
  | conditional {ts : List Token} {e : Expr} (h : Conditional E P ts e) : Assignment ts e
  | assign {ts vs : List Token} {x : Symbol} {op : AssignOp} {span : Span} {target value : Expr}
    (ht : Conditional E P ts target) (isTarget : target.isTarget = true)
    (hop : assignOp x = some op) (hv : E vs value) :
    Assignment (ts ++ ⟨.symbol x, span⟩ :: vs)
      (.assign (target.span.merge value.span) op target value)

end

/-! ## Statements -/

/-- Which tokens write what if some token follows. -/
abbrev Clause (α : Type) := List Token → α → Token → Prop

/-- What ends a statement, whose last token so far is at `before`: a semicolon, or nothing where a
block or the text ends, or where the line does. -/
inductive Ends (lines : Bool) (before : Span) : List Token → Token → Prop
  | semicolon {span : Span} {next : Token} : Ends lines before [⟨.symbol .semicolon, span⟩] next
  | brace {next : Token} (h : next.kind = .symbol .rightBrace) : Ends lines before [] next
  | finish {next : Token} (h : next.kind = .endOfInput) : Ends lines before [] next
  | line {next : Token} (hl : lines = true) (h : before.line < next.span.line) :
    Ends lines before [] next

/-- Statements one after another. -/
inductive Statements (C : Clause Stmt) : Clause (List Stmt)
  | nil {next : Token} : Statements C [] [] next
  | cons {ts us : List Token} {s : Stmt} {body : List Stmt} {next : Token}
    (h : C ts s (us.headD next)) (rest : Statements C us body next) :
    Statements C (ts ++ us) (s :: body) next

/-- Statements in braces. -/
inductive Braced (C : Clause Stmt) : Phrase (List Stmt)
  | mk {ts : List Token} {first last : Span} {body : List Stmt}
    (h : Statements C ts body ⟨.symbol .rightBrace, last⟩) :
    Braced C (⟨.symbol .leftBrace, first⟩ :: (ts ++ [⟨.symbol .rightBrace, last⟩])) body

/-- What may be left out. -/
inductive Possibly {α : Type} (P : Phrase α) : Phrase (Option α)
  | none : Possibly P [] none
  | some {ts : List Token} {a : α} (h : P ts a) : Possibly P ts (some a)

/-- Whether tokens begin a statement that is no expression, though an expression can begin with the
same token. -/
def opensStatement : List Token → Bool
  | [] => false
  | t :: ts => t.kind = .symbol .leftBrace ||
      (t.kind = .word .functionWord && ts.head?.any (·.kind.isName))

section

variable (E : Phrase Expr)

/-- A declaration without what ends it.  Only a variable may be declared without a value. -/
inductive Declaration : Phrase Stmt
  | value {vs : List Token} {k : Kind} {how : Declarator} {key : String} {first span eq : Span}
    {v : Expr} (hk : declarator? k = some how) (h : E vs v) :
    Declaration (⟨k, first⟩ :: ⟨.name key, span⟩ :: ⟨.symbol .eq, eq⟩ :: vs)
      (.declaration (first.merge (lastSpan vs)) how ⟨key, span⟩ (some v))
  | bare {key : String} {first span : Span} :
    Declaration [⟨.word .letWord, first⟩, ⟨.name key, span⟩]
      (.declaration (first.merge span) .variable ⟨key, span⟩ none)

/-- What stands before the first semicolon of a loop. -/
inductive LoopStart : Phrase (Option Stmt)
  | none : LoopStart [] none
  | declaration {ts : List Token} {d : Stmt} (h : Declaration E ts d) : LoopStart ts (some d)
  | expr {ts : List Token} {e : Expr} (h : E ts e) : LoopStart ts (some (.expr e))

/-- A statement, in a loop or not; `S` is what a statement inside of it is. -/
inductive Rule (lines : Bool) (S : Bool → Clause Stmt) : Bool → Clause Stmt
  | declaration {loop : Bool} {ts us : List Token} {d : Stmt} {next : Token}
    (h : Declaration E ts d) (he : Ends lines (lastSpan ts) us next) :
    Rule lines S loop (ts ++ us) d next
  | function {loop : Bool} {ps bs : List Token} {first span : Span} {name : String}
    {params : List Name} {body : List Stmt} {next : Token} (hp : Parameters ps params)
    (hb : Braced (S false) bs body) :
    Rule lines S loop (⟨.word .functionWord, first⟩ :: ⟨.name name, span⟩ :: (ps ++ bs))
      (.function (.mk (some ⟨name, span⟩) params (.block body) (first.merge (lastSpan bs)))) next
  | ifThen {loop : Bool} {cs ys : List Token} {first opening closing : Span} {condition : Expr}
    {yes : Stmt} {next : Token} (hc : E cs condition) (hy : S loop ys yes next)
    (hn : next.kind ≠ .word .elseWord) :
    Rule lines S loop (⟨.word .ifWord, first⟩ :: ⟨.symbol .leftParen, opening⟩ ::
        (cs ++ ⟨.symbol .rightParen, closing⟩ :: ys))
      (.branch (first.merge (lastSpan ys)) condition yes none) next
  | ifElse {loop : Bool} {cs ys ns : List Token} {first opening closing orElse : Span}
    {condition : Expr} {yes no : Stmt} {next : Token} (hc : E cs condition)
    (hy : S loop ys yes ⟨.word .elseWord, orElse⟩) (hn : S loop ns no next) :
    Rule lines S loop (⟨.word .ifWord, first⟩ :: ⟨.symbol .leftParen, opening⟩ ::
        (cs ++ ⟨.symbol .rightParen, closing⟩ :: (ys ++ ⟨.word .elseWord, orElse⟩ :: ns)))
      (.branch (first.merge (lastSpan ns)) condition yes (some no)) next
  | whileLoop {loop : Bool} {cs bs : List Token} {first opening closing : Span} {condition : Expr}
    {body : Stmt} {next : Token} (hc : E cs condition) (hb : S true bs body next) :
    Rule lines S loop (⟨.word .whileWord, first⟩ :: ⟨.symbol .leftParen, opening⟩ ::
        (cs ++ ⟨.symbol .rightParen, closing⟩ :: bs))
      (.whileLoop (first.merge (lastSpan bs)) condition body) next
  | forLoop {loop : Bool} {ss cs ps bs : List Token} {first opening mark mark' closing : Span}
    {start : Option Stmt} {condition step : Option Expr} {body : Stmt} {next : Token}
    (hs : LoopStart E ss start) (hc : Possibly E cs condition) (hp : Possibly E ps step)
    (hb : S true bs body next) :
    Rule lines S loop (⟨.word .forWord, first⟩ :: ⟨.symbol .leftParen, opening⟩ ::
        (ss ++ ⟨.symbol .semicolon, mark⟩ :: (cs ++ ⟨.symbol .semicolon, mark'⟩ ::
          (ps ++ ⟨.symbol .rightParen, closing⟩ :: bs))))
      (.forLoop (first.merge (lastSpan bs)) start condition step body) next
  | forOf {loop : Bool} {is bs : List Token} {k : Kind} {how : Declarator} {key : String}
    {first opening declared span of closing : Span} {items : Expr} {body : Stmt} {next : Token}
    (hk : declarator? k = some how) (hi : E is items) (hb : S true bs body next) :
    Rule lines S loop (⟨.word .forWord, first⟩ :: ⟨.symbol .leftParen, opening⟩ ::
        ⟨k, declared⟩ :: ⟨.name key, span⟩ :: ⟨.word .ofWord, of⟩ ::
          (is ++ ⟨.symbol .rightParen, closing⟩ :: bs))
      (.forOf (first.merge (lastSpan bs)) how ⟨key, span⟩ items body) next
  | returns {loop : Bool} {vs us : List Token} {first : Span} {v : Expr} {next : Token}
    (h : E vs v) (hvs : ∀ t ∈ vs.head?, t.span.line ≤ first.line)
    (he : Ends lines (lastSpan vs) us next) :
    Rule lines S loop (⟨.word .returnWord, first⟩ :: (vs ++ us))
      (.returns (first.merge (lastSpan vs)) (some v)) next
  | returnsNothing {loop : Bool} {us : List Token} {first : Span} {next : Token}
    (he : Ends lines first us next) :
    Rule lines S loop (⟨.word .returnWord, first⟩ :: us) (.returns (first.merge first) none) next
  | breaks {us : List Token} {first : Span} {next : Token} (he : Ends lines first us next) :
    Rule lines S true (⟨.word .breakWord, first⟩ :: us) (.breaks first) next
  | continues {us : List Token} {first : Span} {next : Token} (he : Ends lines first us next) :
    Rule lines S true (⟨.word .continueWord, first⟩ :: us) (.continues first) next
  | throws {loop : Bool} {vs us : List Token} {first : Span} {v : Expr} {next : Token}
    (h : E vs v) (he : Ends lines (lastSpan vs) us next) :
    Rule lines S loop (⟨.word .throwWord, first⟩ :: (vs ++ us))
      (.throws (first.merge v.span) v) next
  | block {loop : Bool} {ts : List Token} {first last : Span} {body : List Stmt} {next : Token}
    (h : Statements (S loop) ts body ⟨.symbol .rightBrace, last⟩) :
    Rule lines S loop (⟨.symbol .leftBrace, first⟩ :: (ts ++ [⟨.symbol .rightBrace, last⟩]))
      (.block (first.merge last) body) next
  | empty {loop : Bool} {span : Span} {next : Token} :
    Rule lines S loop [⟨.symbol .semicolon, span⟩] (.empty span) next
  | expr {loop : Bool} {ts us : List Token} {e : Expr} {next : Token} (h : E ts e)
    (opens : opensStatement ts = false) (he : Ends lines (lastSpan ts) us next) :
    Rule lines S loop (ts ++ us) (.expr e) next

variable (lines : Bool)

/-- A statement in which statements are nested less than `n` deep. -/
def Statement : Nat → Bool → Clause Stmt
  | 0 => fun _ _ _ _ => False
  | n + 1 => Rule E lines (Statement n)

/-- The body of a function in braces.  The loops around the function are not its own. -/
def Block : Phrase (List Stmt) :=
  fun ts body => ∃ n, Braced (Statement E lines n false) ts body

end

/-! ## Levels -/

/-- What an expression one level deeper is, and a power and an operand at the level itself. -/
structure Level where
  expr : Phrase Expr
  power : Phrase Expr
  operand : Phrase Expr

def Level.over (lines : Bool) (expr powerBelow operandBelow : Phrase Expr) : Level :=
  let operand := Prefixed expr (Block expr lines) operandBelow
  ⟨expr, Power operand powerBelow, operand⟩

/-- What is written where `n` more levels can be opened. -/
def level (lines : Bool) : Nat → Level
  | 0 =>
    let nothing : Phrase Expr := fun _ _ => False
    .over lines nothing nothing nothing
  | n + 1 =>
    let below := level lines n
    .over lines (Assignment below.expr (Block below.expr lines) below.power) below.power
      below.operand

/-- What the tokens of a whole script write. -/
def Written (lines : Bool) : Clause (List Stmt) :=
  fun ts body final => ∃ n, Statements (Statement (level lines 64).expr lines n false) ts body final

/-! ## Beginnings -/

/-- What an operand can begin with that no operator is in front of. -/
def opens : Kind → Bool
  | .number _ | .string _ | .stringStart _ | .name _ => true
  | .word .trueWord | .word .falseWord | .word .nullWord | .word .undefinedWord => true
  | .word .functionWord => true
  | .symbol .leftBracket | .symbol .leftBrace | .symbol .leftParen => true
  | _ => false

/-- What an operand can begin with. -/
def begins (k : Kind) : Bool :=
  opens k || (signOp k).isSome || (stepOp k).isSome

theorem begins_of_opens {k : Kind} (h : opens k = true) : begins k = true := by
  simp [begins, h]

section

variable {E U P W : Phrase Expr} {B : Phrase (List Stmt)} {first : Kind → Bool}

theorem starts_primary : Starts opens (Primary E B) := by
  intro ts e h
  cases h with
  | function h => cases h <;> exact ⟨_, _, rfl, rfl⟩
  | _ => exact ⟨_, _, rfl, rfl⟩

theorem starts_suffixed : Starts opens (Suffixed E B) := by
  intro ts e h
  induction h with
  | primary h => exact starts_primary h
  | member _ _ ih | index _ _ ih | call _ _ ih =>
    obtain ⟨t, us, rfl, ht⟩ := ih
    exact ⟨t, _, rfl, ht⟩

theorem starts_updated : Starts opens (Updated E B) := by
  intro ts e h
  cases h with
  | suffixed h => exact starts_suffixed h
  | step h _ _ _ => exact starts_suffixed.append h

theorem starts_prefixed : Starts begins (Prefixed E B U) := by
  intro ts e h
  cases h with
  | updated h =>
    obtain ⟨t, us, rfl, ht⟩ := starts_updated h
    exact ⟨t, us, rfl, begins_of_opens ht⟩
  | sign hk _ => exact ⟨_, _, rfl, by simp [begins, hk]⟩
  | step hk _ _ => exact ⟨_, _, rfl, by simp [begins, hk]⟩

theorem starts_power (h : Starts first P) : Starts first (Power P W) := by
  intro ts e hP
  cases hP with
  | one hP => exact h hP
  | pow hP _ => exact h.append hP

theorem starts_coalesced (h : Starts first P) : Starts first (Coalesced P) := by
  have hchain {n : Nat} {Q : Phrase Expr} (hQ : Starts first Q) : Starts first (Chain (joins n) Q) :=
    starts_operands (fun _ => hQ) false
  exact hchain (hchain (hchain (hchain (hchain (hchain (hchain h))))))

theorem starts_conditional (h : Starts first P) : Starts first (Conditional E P) := by
  intro ts e hP
  cases hP with
  | one hP => exact starts_coalesced h hP
  | choice hP _ _ => exact (starts_coalesced h).append hP

theorem starts_arrow : Starts opens (Arrow E B) := by
  intro ts e h
  cases h with
  | single _ => exact ⟨_, _, rfl, rfl⟩
  | listed hp _ =>
    cases hp
    exact ⟨_, _, rfl, rfl⟩

theorem starts_assignment (h : Starts begins P) : Starts begins (Assignment E B P) := by
  intro ts e hP
  cases hP with
  | arrow hP =>
    obtain ⟨t, us, rfl, ht⟩ := starts_arrow hP
    exact ⟨t, us, rfl, begins_of_opens ht⟩
  | conditional hP => exact starts_conditional h hP
  | assign hP _ _ _ => exact (starts_conditional h).append hP

theorem starts_level (lines : Bool) (n : Nat) :
    Starts begins (level lines n).expr ∧ Starts begins (level lines n).power ∧
      Starts begins (level lines n).operand := by
  cases n with
  | zero =>
    refine ⟨fun ts e h => h.elim, starts_power starts_prefixed, starts_prefixed⟩
  | succ n =>
    refine ⟨starts_assignment ?_, starts_power starts_prefixed, starts_prefixed⟩
    cases n <;> exact starts_power starts_prefixed

theorem starts_braced {C : Clause Stmt} : Starts (· = .symbol .leftBrace) (Braced C) := by
  intro ts body h
  cases h
  exact ⟨_, _, rfl, rfl⟩

theorem ne_nil_declaration {ts : List Token} {d : Stmt} (h : Declaration E ts d) : ts ≠ [] := by
  cases h <;> exact List.cons_ne_nil _ _

theorem ne_nil_statement (hE : Starts begins E) {lines : Bool} {n : Nat} {loop : Bool}
    {ts : List Token} {s : Stmt} {next : Token} (h : Statement E lines n loop ts s next) : ts ≠ [] := by
  cases n with
  | zero => exact h.elim
  | succ n =>
    cases h with
    | declaration h _ => exact List.append_ne_nil_of_left_ne_nil (ne_nil_declaration h) _
    | expr h _ _ => exact List.append_ne_nil_of_left_ne_nil (hE.ne_nil h) _
    | _ => exact List.cons_ne_nil _ _

theorem starts_block (lines : Bool) : Starts (· = .symbol .leftBrace) (Block E lines) := by
  intro ts body ⟨n, h⟩
  exact starts_braced h

end

end Grammar
end Script
end Workbook
