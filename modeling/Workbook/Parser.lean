/-
What the parsers of both languages share: the state that a parser works on, the
ways to take a token, and the limit on nesting.

A parser that fails has reported a problem.  It leaves the tokens it took behind,
so that the caller can go on after them.
-/
import Workbook.Problem
import Workbook.Syntax

namespace Workbook

open Token (Kind Keyword Symbol)

/-- What a parser works on: the tokens ahead, the span of the last one taken, the
problems found, and how many nested expressions and loops are open. -/
structure Parser.State where
  rest : List Token
  previous : Span
  problems : Problems
  depth : Nat
  loops : Nat

/-- A parser yields a result, or none after a problem, and the state after it. -/
abbrev Parser (α : Type) := OptionT (StateM Parser.State) α

namespace Parser

/-- Before any token. -/
def start (tokens : List Token) : State :=
  ⟨tokens, .point .start, .empty, 0, 0⟩

namespace State

/-- The token ahead; at the end of the tokens, the end once more. -/
def current (s : State) : Token :=
  s.rest.headD ⟨.endOfInput, s.previous⟩

def kind (s : State) : Kind :=
  s.current.kind

/-- The kind of the token `n` places further on. -/
def kindAt (s : State) (n : Nat) : Kind :=
  ((s.rest[n]?).map Token.kind).getD .endOfInput

/-- The state after the token ahead. -/
def taken (s : State) : State :=
  match s.rest with
  | [] => s
  | t :: rest => { s with rest := rest, previous := t.span }

/-- Whether the token ahead stands on the line of the one before it. -/
def onSameLine (s : State) : Bool :=
  s.current.span.line == s.previous.line

end State

/-! ## Looking and taking -/

/-- The kind of the token ahead. -/
def peek : Parser Kind := do
  return (← get).kind

/-- The span of the token ahead. -/
def here : Parser Span := do
  return (← get).current.span

/-- The span of the token taken last. -/
def previous : Parser Span := do
  return (← get).previous

/-- The span from a first one to the token taken last. -/
def since (first : Span) : Parser Span := do
  return first.merge (← previous)

/-- Takes the token ahead and yields its span. -/
def take : Parser Span := do
  let span ← here
  modify State.taken
  return span

/-- Whether the token ahead is of this kind. -/
def sees (k : Kind) : Parser Bool := do
  return (← peek) = k

def seesSymbol (s : Symbol) : Parser Bool :=
  sees (.symbol s)

/-- Takes the token ahead if it is of this kind. -/
def eats (k : Kind) : Parser Bool := do
  if ← sees k then
    let _ ← take
    return true
  return false

def eatsSymbol (s : Symbol) : Parser Bool :=
  eats (.symbol s)

/-! ## Problems -/

/-- Reports a problem and goes on. -/
def reportAt (cause : Problem.Cause) (span : Span) : Parser Unit :=
  modify fun s => { s with problems := s.problems.push ⟨cause, span⟩ }

/-- Reports a problem with the token ahead and goes on. -/
def report (cause : Problem.Cause) : Parser Unit := do
  reportAt cause (← here)

/-- Gives up with a problem with the token ahead. -/
def reject {α : Type} (cause : Problem.Cause) : Parser α := do
  report cause
  failure

/-- Takes a token that must be of this kind. -/
def expect (k : Kind) : Parser Unit := do
  if !(← eats k) then reject (.expectedToken k (← peek))

def expectSymbol (s : Symbol) : Parser Unit :=
  expect (.symbol s)

def expectWord (w : Keyword) : Parser Unit :=
  expect (.word w)

/-- Takes a name. -/
def name : Parser Name := do
  match ← peek with
  | .name text => return ⟨text, ← take⟩
  | got => reject (.expectedName got)

/-- Takes the name of a member, which may be a reserved word. -/
def memberName : Parser Name := do
  match ← peek with
  | .name text => return ⟨text, ← take⟩
  | .word w => return ⟨w.text, ← take⟩
  | got => reject (.expectedProperty got)

/-- Takes the key of an entry: a name, a reserved word, a string or a number. -/
def key : Parser Name := do
  match ← peek with
  | .string s => return ⟨s, ← take⟩
  | .number n => return ⟨n.text, ← take⟩
  | _ => memberName

/-- Whether an entry is ahead that is a name alone, which stands for its key and
its value. -/
def seesShorthand : Parser Bool := do
  let s ← get
  return s.kind.isName && (s.kindAt 1 = .symbol .comma || s.kindAt 1 = .symbol .rightBrace)

/-- Runs a parser and goes on even if it fails; none then. -/
def attempt {α : Type} (p : Parser α) : Parser (Option α) :=
  OptionT.mk (some <$> p.run)

/-- The outcome of an attempt. -/
def ofOutcome {α : Type} : Option α → Parser α
  | some a => return a
  | none => failure

/-! ## Nesting -/

/-- How many expressions may be open at once. -/
def maxNesting : Nat := 64

/-- Runs a parser one level deeper, unless that is too deep. -/
def nested {α : Type} (p : Parser α) : Parser α := do
  if maxNesting ≤ (← get).depth then reject (.tooDeep maxNesting)
  modify fun s => { s with depth := s.depth + 1 }
  let outcome ← attempt p
  modify fun s => { s with depth := s.depth - 1 }
  ofOutcome outcome

/-! ## Repetition -/

/-- Operands with operators between them, from left to right.  `next` takes an
operator that is ahead and yields how to join the operands. -/
def chain {α : Type} (next : Parser (Option (α → α → α))) (operand : Parser α) :
    Nat → α → Parser α
  | 0, left => return left
  | fuel + 1, left => do
    match ← next with
    | none => return left
    | some join => chain next operand fuel (join left (← operand))

/-- One operand or several with operators between them.  Each operator is a
token, so there are no more of them than tokens ahead. -/
def operands {α : Type} (next : Parser (Option (α → α → α))) (operand : Parser α) :
    Parser α := do
  let left ← operand
  chain next operand (← get).rest.length left

/-- Takes an operator that a table has for the token ahead. -/
def operator {β : Type} (table : Symbol → Option β) : Parser (Option β) := do
  match ← peek with
  | .symbol s =>
    match table s with
    | some b =>
      let _ ← take
      return some b
    | none => return none
  | _ => return none

/-- Parts with commas between them up to a closing token, which is not taken.  A
comma may follow the last part. -/
def separated {α : Type} (close : Symbol) (part : Parser α) : Nat → Parser (List α)
  | 0 => return []
  | fuel + 1 => do
    if ← seesSymbol close then return []
    let first ← part
    if ← eatsSymbol .comma then
      return first :: (← separated close part fuel)
    return [first]

/-- Parts with commas between them and the closing token.  Each part takes a
token at least. -/
def closedBy {α : Type} (close : Symbol) (part : Parser α) : Parser (List α) := do
  let parts ← separated close part (← get).rest.length
  expectSymbol close
  return parts

/-- The parameters of a function in parentheses. -/
def parameters : Parser (List Name) := do
  expectSymbol .leftParen
  closedBy .rightParen name

/-- An expression that three dots may come before. -/
def item {α : Type} (expr : Parser α) : Parser (Item α) := do
  if ← eatsSymbol .dotDotDot then return .spread (← expr)
  return .one (← expr)

/-- A text as a piece of a string; the empty text is none. -/
def textPiece {α : Type} (s : String) : List (Piece α) :=
  if s.isEmpty then [] else [.text s]

/-- The expressions of a string, and the texts after each of them. -/
def holes {α : Type} (expr : Parser α) (unterminated : Problem.Cause) :
    Nat → Parser (List (Piece α))
  | 0 => reject unterminated
  | fuel + 1 => do
    expect .holeStart
    let e ← expr
    expect .holeEnd
    match ← peek with
    | .stringPart s =>
      let _ ← take
      return .hole e :: textPiece s ++ (← holes expr unterminated fuel)
    | .stringEnd s =>
      let _ ← take
      return .hole e :: textPiece s
    | _ => reject unterminated

/-- The pieces of a string whose first text has been taken.  Each expression is
at least one token. -/
def pieces {α : Type} (first : String) (expr : Parser α) (unterminated : Problem.Cause) :
    Parser (List (Piece α)) := do
  let tail ← holes expr unterminated (← get).rest.length.succ
  return textPiece first ++ tail

end Parser
end Workbook
