/-
Reading whole scripts.
-/
import Workbook.Script.Parser.Statement
import Workbook.Token.Lexer

namespace Workbook
namespace Script
namespace Parser

open Workbook.Parser

/-! ## Levels -/

/-- The parsers of one level of nesting: an expression one level deeper, and a
power and an operand at the level itself. -/
structure Level where
  expr : ExprParser
  power : ExprParser
  operand : ExprParser

/-- The parsers at a level, with an expression one level deeper and with a power
and an operand after an operator. -/
def Level.over (expr powerBelow operandBelow : ExprParser) : Level :=
  let operand : ExprParser := do
    unary expr (block expr) operandBelow ((← get).rest.length + 1)
  ⟨expr, Parser.power operand powerBelow, operand⟩

/-- The parsers at a level above which `n` more can be opened.  At the last one,
nothing can be nested. -/
def level : Nat → Level
  | 0 =>
    let tooDeep := reject (.tooDeep maxNesting)
    .over tooDeep tooDeep tooDeep
  | n + 1 =>
    let below := level n
    .over (nested (assignment below.expr below.power (block below.expr))) below.power
      below.operand

/-- A whole expression. -/
def expression : ExprParser :=
  (level maxNesting).expr

/-- The statements of a source text.  A closing brace that nothing opened is
reported and skipped. -/
def topLevel (statement : StmtParser) : Nat → Workbook.Parser (List Stmt)
  | 0 => return []
  | fuel + 1 => do
    if (← sees .endOfInput) || (← get).problems.isFull then return []
    if ← seesSymbol .rightBrace then
      report .strayBrace
      let _ ← take
      topLevel statement fuel
    else
      let first ← statementOrSkip statement
      return first.toList ++ (← topLevel statement fuel)

/-- A whole script. -/
def whole : Workbook.Parser Program := do
  let first ← here
  let ahead := (← get).rest.length
  let body ← topLevel (statement expression ahead) ahead
  return ⟨body, ← since first⟩

end Parser

/-- The script that a text writes, and the problems with it; those of the tokens
come first. -/
def parse (s : Source) : Option Program × Problems :=
  let (tokens, problems) := Token.lex .script s
  let (p, state) := StateT.run (OptionT.run Parser.whole) (Workbook.Parser.start tokens)
  (p, problems.append state.problems)

/-- The script that a text writes, if there are no problems with it. -/
def compile (s : Source) : Except Problems Program :=
  match parse s with
  | (some p, problems) => if problems.isEmpty then .ok p else .error problems
  | (none, problems) => .error problems

end Script
end Workbook
