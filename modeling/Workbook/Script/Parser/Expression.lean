/-
Reading the expressions of scripts.  The operators, from the loosest to the
tightest:

* assignments and arrows, which group to the right; then `? :`
* `??`; then `||`; then `&&`
* equalities; then comparisons
* `+` and `-`; then `*`, `/` and `%`; then `**`, which groups to the right
* signs, `!`, `typeof`, `delete`, `++` and `--` in front of an operand
* `++` and `--` after an operand, on its line
* members, indexes and calls after an operand

Each parser takes the parsers for what it encloses: `expr` for an expression one
level deeper and `block` for statements in braces.
-/
import Workbook.Parser
import Workbook.Script

namespace Workbook
namespace Script
namespace Parser

open Workbook.Parser
open Token (Kind Symbol)

/-- A parser of expressions. -/
abbrev ExprParser := Workbook.Parser Expr

/-- A parser of statements in braces. -/
abbrev BlockParser := Workbook.Parser (List Stmt)

/-! ## Functions -/

/-- The body of a function.  The loops around the function are not its own. -/
def functionBody (block : BlockParser) : BlockParser := do
  let loops := (← get).loops
  modify fun s => { s with loops := 0 }
  let outcome ← attempt block
  modify fun s => { s with loops := loops }
  ofOutcome outcome

/-- `function name(parameters) { body }`, the name optional. -/
def function (block : BlockParser) : Workbook.Parser Function := do
  let first ← here
  expectWord .functionWord
  let n ← if (← peek).isName then some <$> name else pure none
  let ps ← parameters
  let body ← functionBody block
  return .mk n ps (.block body) (← since first)

/-- Whether an arrow follows the parentheses that close; `opened` of them are
open. -/
def arrowAfter : Nat → List Token → Bool
  | _, [] => false
  | opened, t :: rest =>
    match t.kind with
    | .symbol .leftParen => arrowAfter (opened + 1) rest
    | .symbol .rightParen =>
      if opened ≤ 1 then rest.head?.any (·.kind = .symbol .arrow)
      else arrowAfter (opened - 1) rest
    | .endOfInput => false
    | _ => arrowAfter opened rest

/-- Whether an arrow function is ahead. -/
def seesArrow : Workbook.Parser Bool := do
  let s ← get
  match s.kind with
  | .name _ => return s.kindAt 1 = .symbol .arrow
  | .symbol .leftParen => return arrowAfter 0 s.rest
  | _ => return false

/-- `name => body` or `(parameters) => body` -/
def arrow (expr : ExprParser) (block : BlockParser) : ExprParser := do
  let first ← here
  let ps ← if ← seesSymbol .leftParen then parameters else (fun n => [n]) <$> name
  expectSymbol .arrow
  let body ←
    if ← seesSymbol .leftBrace then Body.block <$> functionBody block else Body.expr <$> expr
  return .function (.mk none ps body (← since first))

/-! ## Operands -/

/-- The value after a key: of an entry `key: value`, or a method
`key(parameters) { body }`. -/
def entryValue (expr : ExprParser) (block : BlockParser) (k : Name) : ExprParser := do
  if ← seesSymbol .leftParen then
    let ps ← parameters
    let body ← functionBody block
    return .function (.mk (some k) ps (.block body) (← since k.span))
  expectSymbol .colon
  expr

/-- An entry of an object.  A name alone stands for its key and its value. -/
def entry (expr : ExprParser) (block : BlockParser) : Workbook.Parser (Entry Expr) := do
  if ← eatsSymbol .dotDotDot then return .spread (← expr)
  let short ← seesShorthand
  let k ← key
  if short then return .field k (.name k.span k.text)
  return .field k (← entryValue expr block k)

/-- What stands for itself: a literal, a name, a function, or what brackets
enclose. -/
def primary (expr : ExprParser) (block : BlockParser) : ExprParser := do
  match ← peek with
  | .number n => return .number (← take) n.toFloat
  | .string s => return .string (← take) s
  | .stringStart s =>
    let first ← take
    let ps ← pieces s expr .unterminatedTemplate
    return .template (← since first) ps
  | .name s => return .name (← take) s
  | .word .trueWord => return .boolean (← take) true
  | .word .falseWord => return .boolean (← take) false
  | .word .nullWord => return .null (← take)
  | .word .undefinedWord => return .undefined (← take)
  | .word .functionWord => return .function (← function block)
  | .symbol .leftBracket =>
    let first ← take
    let items ← closedBy .rightBracket (item expr)
    return .array (← since first) items
  | .symbol .leftBrace =>
    let first ← take
    let entries ← closedBy .rightBrace (entry expr block)
    return .object (← since first) entries
  | .symbol .leftParen =>
    let _ ← take
    let inner ← expr
    expectSymbol .rightParen
    return inner
  | got => reject (.expectedExpression got)

/-- The members, indexes and calls after an operand. -/
def suffixes (expr : ExprParser) : Nat → Expr → ExprParser
  | 0, e => return e
  | fuel + 1, e => do
    match ← peek with
    | .symbol .dot =>
      let _ ← take
      let k ← memberName
      suffixes expr fuel (.member (e.span.merge k.span) e k)
    | .symbol .leftBracket =>
      let _ ← take
      let k ← expr
      expectSymbol .rightBracket
      suffixes expr fuel (.index (← since e.span) e k)
    | .symbol .leftParen =>
      let _ ← take
      let arguments ← closedBy .rightParen (item expr)
      suffixes expr fuel (.call (← since e.span) e arguments)
    | _ => return e

/-- Reports an expression that cannot be written to. -/
def checkTarget (e : Expr) : Workbook.Parser Unit := do
  if !e.isTarget then reportAt .badTarget e.span

/-- Whether the token ahead adds one or takes one away. -/
def stepOp : Kind → Option Bool
  | .symbol .plusPlus => some true
  | .symbol .minusMinus => some false
  | _ => none

/-- An operand with what comes after it.  Each suffix takes a token at least. -/
def suffixed (expr : ExprParser) (block : BlockParser) : ExprParser := do
  let e ← primary expr block
  let e ← suffixes expr (← get).rest.length e
  let s ← get
  match stepOp s.kind with
  | some increment =>
    if s.onSameLine then
      let _ ← take
      checkTarget e
      return .update (← since e.span) increment false e
    return e
  | none => return e

def signOp : Kind → Option UnaryOp
  | .symbol .bang => some .not
  | .symbol .minus => some .neg
  | .symbol .plus => some .plus
  | .word .typeofWord => some .typeof
  | .word .deleteWord => some .delete
  | _ => none

/-- An operand with the operators in front of it; `deeper` reads what comes after
one of them.  Each `++` and `--` is a token, so `steps` bounds their number. -/
def unary (expr : ExprParser) (block : BlockParser) (deeper : ExprParser) : Nat → ExprParser
  | 0 => suffixed expr block
  | steps + 1 => do
    let kind ← peek
    match signOp kind, stepOp kind with
    | some op, _ =>
      let first ← take
      let operand ← nested deeper
      return .unary (first.merge operand.span) op operand
    | none, some increment =>
      let first ← take
      let target ← unary expr block deeper steps
      checkTarget target
      return .update (first.merge target.span) increment true target
    | none, none => suffixed expr block

/-! ## Operators -/

def joined (op : BinaryOp) (left right : Expr) : Expr :=
  .binary (left.span.merge right.span) op left right

def joinedLogically (op : LogicalOp) (left right : Expr) : Expr :=
  .logical (left.span.merge right.span) op left right

/-- An operand and, after `**`, a power; `deeper` reads the latter. -/
def power (operand deeper : ExprParser) : ExprParser := do
  let base ← operand
  if ← eatsSymbol .starStar then return joined .pow base (← nested deeper)
  return base

def factorOp : Symbol → Option BinaryOp
  | .star => some .mul
  | .slash => some .div
  | .percent => some .mod
  | _ => none

def termOp : Symbol → Option BinaryOp
  | .plus => some .add
  | .minus => some .sub
  | _ => none

def comparisonOp : Symbol → Option BinaryOp
  | .less => some .less
  | .greater => some .greater
  | .lessEq => some .lessEq
  | .greaterEq => some .greaterEq
  | _ => none

def equalityOp : Symbol → Option BinaryOp
  | .eqEq => some .eq
  | .bangEq => some .notEq
  | .eqEqEq => some .strictEq
  | .bangEqEq => some .strictNotEq
  | _ => none

/-- Operands with the operators of a table between them. -/
def joinedBy (table : Symbol → Option BinaryOp) (operand : ExprParser) : ExprParser :=
  operands (return (← operator table).map joined) operand

/-- Operands with one logical operator between them. -/
def logicallyJoinedBy (s : Symbol) (op : LogicalOp) (operand : ExprParser) : ExprParser :=
  operands (operator fun t => if t = s then some (joinedLogically op) else none) operand

/-- Powers with all the operators between them that group to the left. -/
def coalesced (power : ExprParser) : ExprParser :=
  logicallyJoinedBy .questionQuestion .coalesce <|
  logicallyJoinedBy .pipePipe .or <|
  logicallyJoinedBy .ampAmp .and <|
  joinedBy equalityOp <| joinedBy comparisonOp <| joinedBy termOp <| joinedBy factorOp power

/-- `condition ? yes : no` -/
def conditional (expr power : ExprParser) : ExprParser := do
  let condition ← coalesced power
  if ← eatsSymbol .question then
    let yes ← expr
    expectSymbol .colon
    let no ← expr
    return .conditional (condition.span.merge no.span) condition yes no
  return condition

def assignOp : Symbol → Option AssignOp
  | .eq => some .plain
  | .plusEq => some .add
  | .minusEq => some .sub
  | .starEq => some .mul
  | .slashEq => some .div
  | _ => none

/-- An arrow function, or an expression that a value may be assigned to. -/
def assignment (expr power : ExprParser) (block : BlockParser) : ExprParser := do
  if ← seesArrow then arrow expr block
  else
    let target ← conditional expr power
    match ← peek with
    | .symbol s =>
      match assignOp s with
      | none => return target
      | some op =>
        checkTarget target
        let _ ← take
        let value ← expr
        return .assign (target.span.merge value.span) op target value
    | _ => return target

end Parser
end Script
end Workbook
