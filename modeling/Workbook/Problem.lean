/-
What can be wrong with a source text.  A problem has a cause, from which its
number and its wording follow, and a place.
-/
import Workbook.Token

namespace Workbook
namespace Problem

open Token (Kind)

/-- The causes, in the order of their numbers: what is wrong with characters,
with the order of tokens, and with what the tokens build. -/
inductive Cause
  | unexpectedCharacter (c : Char)
  | bangForNot
  | ampersandsForAnd
  | barsForOr
  | unterminatedString
  | endInEscape
  | badEscape (c : Char)
  | escapeWithoutBrace
  | badCodePoint (digits : String)
  | unterminatedComment
  | expectedToken (expected got : Kind)
  | expectedName (got : Kind)
  | expectedProperty (got : Kind)
  | expectedExpression (got : Kind)
  | expectedSemicolon (got : Kind)
  | strayBrace
  | missingInitializer (name : String)
  | unterminatedHole
  | unterminatedTemplate
  | chainedComparison
  | trailingInput (got : Kind)
  | badTarget
  | tooDeep (limit : Nat)
  | misplacedJump (word : String)
  deriving DecidableEq

/-- The three families of causes. -/
inductive Category
  | lexical
  | ordering
  | structural
  deriving DecidableEq, Repr

def Category.name : Category → String
  | .lexical => "lexical"
  | .ordering => "syntax"
  | .structural => "structure"

namespace Cause

/-- The number that stands for the cause.  A token that is missing because the
text ends counts as an open delimiter or a missing expression. -/
def code : Cause → Nat
  | .unexpectedCharacter _ | .bangForNot | .ampersandsForAnd | .barsForOr => 100
  | .unterminatedString | .endInEscape => 101
  | .badEscape _ | .escapeWithoutBrace | .badCodePoint _ => 102
  | .unterminatedComment => 103
  | .expectedToken _ got => if got = .endOfInput then 202 else 200
  | .expectedExpression got => if got = .endOfInput then 201 else 200
  | .expectedName _ | .expectedProperty _ | .expectedSemicolon _ | .strayBrace => 200
  | .missingInitializer _ => 201
  | .unterminatedHole | .unterminatedTemplate => 202
  | .chainedComparison => 203
  | .trailingInput _ => 204
  | .badTarget => 300
  | .tooDeep _ => 301
  | .misplacedJump _ => 302

def category (c : Cause) : Category :=
  if c.code < 200 then .lexical else if c.code < 300 then .ordering else .structural

def message : Cause → String
  | .unexpectedCharacter c => "Unexpected character '" ++ c.toString ++ "'"
  | .bangForNot => "Unexpected character '!'; use 'not' for negation"
  | .ampersandsForAnd => "Unexpected '&&'; use 'and'"
  | .barsForOr => "Unexpected '||'; use 'or'"
  | .unterminatedString => "Unterminated string literal"
  | .endInEscape => "Unexpected end of input in escape sequence"
  | .badEscape c => "Invalid escape sequence '\\" ++ c.toString ++ "'"
  | .escapeWithoutBrace => "Expected '\x7b' after '\\u'"
  | .badCodePoint digits => "Invalid unicode escape '\\u\x7b" ++ digits ++ "\x7d'"
  | .unterminatedComment => "Unterminated block comment"
  | .expectedToken expected got => "expected '" ++ expected.text ++ "', got '" ++ got.text ++ "'"
  | .expectedName got => "expected identifier, got '" ++ got.text ++ "'"
  | .expectedProperty got => "expected property name, got '" ++ got.text ++ "'"
  | .expectedExpression got => "expected expression, got '" ++ got.text ++ "'"
  | .expectedSemicolon got => "expected ';', got '" ++ got.text ++ "'"
  | .strayBrace => "unexpected '\x7d'"
  | .missingInitializer name => "missing initializer in const declaration of '" ++ name ++ "'"
  | .unterminatedHole => "unterminated string interpolation"
  | .unterminatedTemplate => "unterminated template literal"
  | .chainedComparison =>
    "comparison operators cannot be chained; use 'and' to combine: a < b and b < c"
  | .trailingInput got => "unexpected '" ++ got.text ++ "' after end of expression"
  | .badTarget => "invalid assignment target"
  | .tooDeep limit => "maximum nesting depth is " ++ toString limit
  | .misplacedJump word => "'" ++ word ++ "' outside of a loop"

end Cause
end Problem

/-- A cause at a place of a source text. -/
structure Problem where
  cause : Problem.Cause
  span : Span
  deriving DecidableEq

namespace Problem

/-- The problem on one line, with its place, number and family. -/
def text (p : Problem) : String :=
  p.span.text ++ ": E" ++ toString p.cause.code ++ " [" ++ p.cause.category.name ++ "] " ++
    p.cause.message

/-- The source line that the problem is on. -/
def sourceLine (p : Problem) (s : Source) : String :=
  s.line p.span.line

end Problem

/-- The problems of one source text.  The first ones are kept, all are counted. -/
structure Problems where
  kept : List Problem
  total : Nat
  deriving DecidableEq

namespace Problems

/-- How many problems are kept, and how many stop the search for more. -/
def limit : Nat := 20

def empty : Problems := ⟨[], 0⟩

def isEmpty (ps : Problems) : Bool :=
  ps.total == 0

/-- Whether enough problems have been found to stop. -/
def isFull (ps : Problems) : Bool :=
  limit ≤ ps.total

def push (ps : Problems) (p : Problem) : Problems :=
  ⟨if ps.kept.length < limit then ps.kept ++ [p] else ps.kept, ps.total + 1⟩

def pushAll (ps : Problems) (qs : List Problem) : Problems :=
  qs.foldl push ps

/-- The problems of both, the second ones after the first ones. -/
def append (ps qs : Problems) : Problems :=
  let all := ps.pushAll qs.kept
  ⟨all.kept, all.total + (qs.total - qs.kept.length)⟩

@[simp] theorem pushAll_nil (ps : Problems) : ps.pushAll [] = ps := rfl

theorem pushAll_append (ps : Problems) (qs rs : List Problem) :
    (ps.pushAll qs).pushAll rs = ps.pushAll (qs ++ rs) :=
  List.foldl_append.symm

theorem total_pushAll (ps : Problems) (qs : List Problem) :
    (ps.pushAll qs).total = ps.total + qs.length := by
  unfold pushAll
  induction qs generalizing ps with
  | nil => rfl
  | cons q qs ih =>
    rw [List.foldl_cons, ih, List.length_cons]
    show ps.total + 1 + qs.length = _
    omega

theorem isEmpty_iff (ps : Problems) : ps.isEmpty = true ↔ ps.total = 0 := by
  simp [isEmpty]

theorem not_isEmpty_of_isFull {ps : Problems} (h : ps.isFull = true) : ¬ ps.isEmpty = true := by
  have hlimit : limit ≤ ps.total := of_decide_eq_true h
  rw [isEmpty_iff]
  unfold limit at hlimit
  omega

/-- Without a problem at last there was none before. -/
theorem isEmpty_of_pushAll {ps : Problems} {qs : List Problem}
    (h : (ps.pushAll qs).isEmpty = true) : ps.isEmpty = true ∧ qs = [] := by
  rw [isEmpty_iff, total_pushAll] at h
  rw [isEmpty_iff]
  exact ⟨by omega, List.eq_nil_of_length_eq_zero (by omega)⟩

end Problems
end Workbook
