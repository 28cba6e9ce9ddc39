/-
Reading the statements of scripts.  After a statement that cannot be read, the
tokens up to the next one are skipped.
-/
import Workbook.Script.Parser.Expression

namespace Workbook
namespace Script
namespace Parser

open Workbook.Parser
open Token (Kind)

/-- A parser of statements. -/
abbrev StmtParser := Workbook.Parser Stmt

/-! ## The end of a statement -/

/-- Whether a statement begins, or a block ends, with the token. -/
def isBoundary : Kind → Bool
  | .symbol .rightBrace | .word .letWord | .word .constWord | .word .functionWord
  | .word .ifWord | .word .whileWord | .word .forWord | .word .returnWord
  | .word .throwWord => true
  | _ => false

/-- Skips to where a statement can begin again: past a semicolon, or to a token
that begins one; `moved` says whether a token has been skipped since the bad
statement began. -/
def skip : Nat → Bool → Workbook.Parser Unit
  | 0, _ => return
  | fuel + 1, moved => do
    match ← peek with
    | .endOfInput => return
    | .symbol .semicolon =>
      let _ ← take
    | k =>
      if moved && isBoundary k then return
      let _ ← take
      skip fuel true

/-- Reads a statement, or skips it if it is bad; `none` then. -/
def statementOrSkip (statement : StmtParser) : Workbook.Parser (Option Stmt) := do
  let ahead := (← get).rest.length
  match ← attempt statement with
  | some s => return some s
  | none =>
    let left := (← get).rest.length
    skip left (left < ahead)
    return none

/-- A statement ends with a semicolon, a line break, a closing brace or the
text. -/
def endStatement : Workbook.Parser Unit := do
  if ← eatsSymbol .semicolon then return
  let s ← get
  let ended := s.kind = .endOfInput || s.kind = .symbol .rightBrace ||
    s.previous.line < s.current.span.line
  if !ended then report (.expectedSemicolon s.kind)

/-! ## Blocks -/

/-- Statements up to a closing brace, the end, or too many problems. -/
def statements (statement : StmtParser) : Nat → Workbook.Parser (List Stmt)
  | 0 => return []
  | fuel + 1 => do
    if (← seesSymbol .rightBrace) || (← sees .endOfInput) || (← get).problems.isFull then
      return []
    let first ← statementOrSkip statement
    return first.toList ++ (← statements statement fuel)

/-- Statements in braces.  Each takes a token at least. -/
def braced (statement : StmtParser) : BlockParser := do
  expectSymbol .leftBrace
  let body ← statements statement (← get).rest.length
  expectSymbol .rightBrace
  return body

/-! ## Statements -/

/-- `let key = value` or `const key = value`, without what ends it. -/
def declaration (how : Declarator) (expr : ExprParser) : StmtParser := do
  let first ← take
  let k ← name
  if ← eatsSymbol .eq then
    let value ← expr
    return .declaration (← since first) how k (some value)
  if how = .constant then report (.missingInitializer k.text)
  return .declaration (← since first) how k none

/-- The word that begins a declaration. -/
def declarator? : Kind → Option Declarator
  | .word .letWord => some .variable
  | .word .constWord => some .constant
  | _ => none

def condition (expr : ExprParser) : ExprParser := do
  expectSymbol .leftParen
  let e ← expr
  expectSymbol .rightParen
  return e

/-- A statement in a loop, which it may leave. -/
def loopBody (statement : StmtParser) : StmtParser := do
  modify fun s => { s with loops := s.loops + 1 }
  let outcome ← attempt statement
  modify fun s => { s with loops := s.loops - 1 }
  ofOutcome outcome

def branch (expr : ExprParser) (statement : StmtParser) : StmtParser := do
  let first ← take
  let c ← condition expr
  let yes ← statement
  let no ← if ← eats (.word .elseWord) then some <$> statement else pure none
  return .branch (← since first) c yes no

def whileLoop (expr : ExprParser) (statement : StmtParser) : StmtParser := do
  let first ← take
  let c ← condition expr
  let body ← loopBody statement
  return .whileLoop (← since first) c body

/-- An expression, unless the closing symbol is ahead. -/
def upTo (close : Token.Symbol) (expr : ExprParser) : Workbook.Parser (Option Expr) := do
  if ← seesSymbol close then return none
  return some (← expr)

/-- What stands before the first semicolon of a loop. -/
def loopStart (expr : ExprParser) : Workbook.Parser (Option Stmt) := do
  let kind ← peek
  match declarator? kind with
  | some how => return some (← declaration how expr)
  | none => return (← upTo .semicolon expr).map .expr

/-- `for (start; condition; step) body` or `for (const key of items) body` -/
def forLoop (expr : ExprParser) (statement : StmtParser) : StmtParser := do
  let first ← take
  expectSymbol .leftParen
  let s ← get
  match declarator? s.kind, (s.kindAt 1).isName && s.kindAt 2 = .word .ofWord with
  | some how, true =>
    let _ ← take
    let k ← name
    expectWord .ofWord
    let items ← expr
    expectSymbol .rightParen
    let body ← loopBody statement
    return .forOf (← since first) how k items body
  | _, _ =>
    let start ← loopStart expr
    expectSymbol .semicolon
    let c ← upTo .semicolon expr
    expectSymbol .semicolon
    let step ← upTo .rightParen expr
    expectSymbol .rightParen
    let body ← loopBody statement
    return .forLoop (← since first) start c step body

/-- `return` with a value that begins on its line. -/
def returning (expr : ExprParser) : StmtParser := do
  let first ← take
  let s ← get
  let bare := s.kind = .endOfInput || s.kind = .symbol .semicolon ||
    s.kind = .symbol .rightBrace || first.line < s.current.span.line
  let value ← if bare then pure none else some <$> expr
  let span ← since first
  endStatement
  return .returns span value

/-- `break` or `continue`, which a loop must be around. -/
def jump (word : String) (make : Span → Stmt) : StmtParser := do
  let span ← take
  if (← get).loops = 0 then reportAt (.misplacedJump word) span
  endStatement
  return make span

def throwing (expr : ExprParser) : StmtParser := do
  let first ← take
  let value ← expr
  endStatement
  return .throws (first.merge value.span) value

def declared (how : Declarator) (expr : ExprParser) : StmtParser := do
  let s ← declaration how expr
  endStatement
  return s

def expressionStatement (expr : ExprParser) : StmtParser := do
  let e ← expr
  endStatement
  return .expr e

/-- A statement; `fuel` bounds how deep statements are nested, each of which
takes a token. -/
def statement (expr : ExprParser) : Nat → StmtParser
  | 0 => do reject (.expectedExpression (← peek))
  | fuel + 1 => do
    let inner := statement expr fuel
    let s ← get
    match s.kind with
    | .word .letWord => declared .variable expr
    | .word .constWord => declared .constant expr
    | .word .functionWord =>
      if (s.kindAt 1).isName then return .function (← function (braced inner))
      else expressionStatement expr
    | .word .ifWord => branch expr inner
    | .word .whileWord => whileLoop expr inner
    | .word .forWord => forLoop expr inner
    | .word .returnWord => returning expr
    | .word .breakWord => jump "break" .breaks
    | .word .continueWord => jump "continue" .continues
    | .word .throwWord => throwing expr
    | .symbol .leftBrace =>
      let first ← here
      let body ← braced inner
      return .block (← since first) body
    | .symbol .semicolon => return .empty (← take)
    | _ => expressionStatement expr

/-- Statements in braces, with the parser of the expressions in them. -/
def block (expr : ExprParser) : BlockParser := do
  braced (statement expr (← get).rest.length)

end Parser
end Script
end Workbook
