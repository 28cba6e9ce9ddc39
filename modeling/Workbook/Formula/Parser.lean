/-
Reading formulas.  The operators, from the loosest to the tightest:

* `or`; then `and`; then `??`
* comparisons, at most one in a row
* `+` and `-`; then `*`, `/` and `%`
* `not` and `-` in front of an operand
* members, indexes and calls after an operand

The forms `if`, `let` and `fn` reach as far to the right as they can.
-/
import Workbook.Formula
import Workbook.Parser
import Workbook.Token.Lexer

namespace Workbook
namespace Formula
namespace Parser

open Workbook.Parser
open Token (Literal Symbol)

/-- A parser of formulas. -/
abbrev ExprParser := Workbook.Parser Expr

/-! ## Operands -/

def literal (span : Span) : Literal → Expr
  | .integer n => .integer span n
  | .big digits => .big span digits
  | .float x => .float span x

/-- `if condition then yes else no` -/
def branch (expr : ExprParser) : ExprParser := do
  let first ← take
  let condition ← expr
  expectWord .thenWord
  let yes ← expr
  expectWord .elseWord
  let no ← expr
  return .branch (first.merge no.span) condition yes no

/-- `let key = value in body` -/
def binding (expr : ExprParser) : ExprParser := do
  let first ← take
  let key ← name
  expectSymbol .eq
  let value ← expr
  expectWord .inWord
  let body ← expr
  return .binding (first.merge body.span) key value body

/-- `fn(parameters) => body` -/
def lambda (expr : ExprParser) : ExprParser := do
  let first ← take
  let ps ← parameters
  expectSymbol .arrow
  let body ← expr
  return .lambda (first.merge body.span) ps body

/-- An entry of a record.  A name alone stands for its key and its value. -/
def entry (expr : ExprParser) : Workbook.Parser (Entry Expr) := do
  if ← eatsSymbol .dotDotDot then return .spread (← expr)
  let short ← seesShorthand
  let k ← key
  if short then return .field k (.name k.span k.text)
  expectSymbol .colon
  return .field k (← expr)

/-- What stands for itself: a literal, a name, or what brackets enclose. -/
def primary (expr : ExprParser) : ExprParser := do
  match ← peek with
  | .number n => return literal (← take) n
  | .string s => return .string (← take) s
  | .stringStart s =>
    let first ← take
    let ps ← pieces s expr .unterminatedHole
    return .interpolation (← since first) ps
  | .name s => return .name (← take) s
  | .word .trueWord => return .boolean (← take) true
  | .word .falseWord => return .boolean (← take) false
  | .word .nullWord => return .null (← take)
  | .word .ifWord => branch expr
  | .word .letWord => binding expr
  | .word .fnWord => lambda expr
  | .symbol .leftBracket =>
    let first ← take
    let items ← closedBy .rightBracket (item expr)
    return .list (← since first) items
  | .symbol .leftBrace =>
    let first ← take
    let entries ← closedBy .rightBrace (entry expr)
    return .record (← since first) entries
  | .symbol .leftParen =>
    let first ← take
    let inner ← expr
    expectSymbol .rightParen
    return .parenthesized (← since first) inner
  | got => reject (.expectedExpression got)

/-- The members, indexes and calls after an operand. -/
def suffixes (expr : ExprParser) : Nat → Expr → ExprParser
  | 0, e => return e
  | fuel + 1, e => do
    match ← peek with
    | .symbol .dot =>
      let _ ← take
      let k ← memberName
      suffixes expr fuel (.member (e.span.merge k.span) e k)
    | .symbol .leftBracket =>
      let _ ← take
      let k ← expr
      expectSymbol .rightBracket
      suffixes expr fuel (.index (← since e.span) e k)
    | .symbol .leftParen =>
      let _ ← take
      let arguments ← closedBy .rightParen expr
      suffixes expr fuel (.call (← since e.span) e arguments)
    | _ => return e

/-- An operand with what comes after it.  Each suffix takes a token at least. -/
def suffixed (expr : ExprParser) : ExprParser := do
  let e ← primary expr
  suffixes expr (← get).rest.length e

/-- An operand with the operators in front of it; `deeper` reads what comes after
one of them. -/
def unary (expr deeper : ExprParser) : ExprParser := do
  match ← peek with
  | .word .notWord => signed .not
  | .symbol .minus => signed .neg
  | _ => suffixed expr
where
  signed (op : UnaryOp) : ExprParser := do
    let first ← take
    let operand ← nested deeper
    return .unary (first.merge operand.span) op operand

/-! ## Operators -/

def joined (op : BinaryOp) (left right : Expr) : Expr :=
  .binary (left.span.merge right.span) op left right

def factorOp : Symbol → Option BinaryOp
  | .star => some .mul
  | .slash => some .div
  | .percent => some .mod
  | _ => none

def termOp : Symbol → Option BinaryOp
  | .plus => some .add
  | .minus => some .sub
  | _ => none

def comparisonOp : Symbol → Option BinaryOp
  | .eqEq => some .eq
  | .bangEq => some .notEq
  | .less => some .less
  | .greater => some .greater
  | .lessEq => some .lessEq
  | .greaterEq => some .greaterEq
  | _ => none

/-- Takes an operator of a table and yields how it joins two operands. -/
def joining (table : Symbol → Option BinaryOp) :
    Workbook.Parser (Option (Expr → Expr → Expr)) := do
  return (← operator table).map joined

def sum (unary : ExprParser) : ExprParser :=
  operands (joining termOp) (operands (joining factorOp) unary)

/-- A further comparison in a row is a problem, but it is read all the same. -/
def chained : Workbook.Parser (Option (Expr → Expr → Expr)) := do
  if let .symbol s ← peek then
    if (comparisonOp s).isSome then report .chainedComparison
  joining comparisonOp

def comparison (unary : ExprParser) : ExprParser := do
  let left ← sum unary
  match ← joining comparisonOp with
  | none => return left
  | some join =>
    let right ← sum unary
    chain chained (sum unary) (← get).rest.length (join left right)

/-- `??` between operands. -/
def coalescing : Workbook.Parser (Option (Expr → Expr → Expr)) := do
  if ← eatsSymbol .questionQuestion then
    return some fun left right => .coalesce (left.span.merge right.span) left right
  return none

/-- A reserved word between operands. -/
def wordOp (w : Token.Keyword) (op : BinaryOp) :
    Workbook.Parser (Option (Expr → Expr → Expr)) := do
  if ← eats (.word w) then return some (joined op)
  return none

/-- Operands with all the operators between them. -/
def disjunction (unary : ExprParser) : ExprParser :=
  operands (wordOp .orWord .or)
    (operands (wordOp .andWord .and) (operands coalescing (comparison unary)))

/-! ## Levels -/

/-- The parsers of one level of nesting: an expression one level deeper, and an
operand at the level itself. -/
structure Level where
  expr : ExprParser
  operand : ExprParser

/-- The parsers at a level above which `n` more can be opened.  At the last one,
nothing can be nested. -/
def level : Nat → Level
  | 0 =>
    let tooDeep := reject (.tooDeep maxNesting)
    ⟨tooDeep, unary tooDeep tooDeep⟩
  | n + 1 =>
    let below := level n
    let expr := nested (disjunction below.operand)
    ⟨expr, unary expr below.operand⟩

/-- A whole expression. -/
def expression : ExprParser :=
  (level maxNesting).expr

/-- The whole source text; an empty one is null. -/
def whole : ExprParser := do
  if ← sees .endOfInput then return .null (← here)
  let e ← expression
  if !(← sees .endOfInput) then report (.trailingInput (← peek))
  return e

end Parser

/-- The formula that a text writes, and the problems with it; those of the
tokens come first. -/
def parse (s : Source) : Option Expr × Problems :=
  let (tokens, problems) := Token.lex .formula s
  let (e, state) := StateT.run (OptionT.run Parser.whole) (Workbook.Parser.start tokens)
  (e, problems.append state.problems)

/-- The formula that a text writes, if there are no problems with it. -/
def compile (s : Source) : Except Problems Expr :=
  match parse s with
  | (some e, problems) => if problems.isEmpty then .ok e else .error problems
  | (none, problems) => .error problems

end Formula
end Workbook
