/-
Formulas: one expression a source text.
-/
import Workbook.Syntax

namespace Workbook
namespace Formula

/-- The operators with two operands. -/
inductive BinaryOp
  | add | sub | mul | div | mod
  | eq | notEq | less | greater | lessEq | greaterEq
  | and | or
  deriving DecidableEq, Repr

namespace BinaryOp

def symbol : BinaryOp → String
  | .add => "+"
  | .sub => "-"
  | .mul => "*"
  | .div => "/"
  | .mod => "%"
  | .eq => "=="
  | .notEq => "!="
  | .less => "<"
  | .greater => ">"
  | .lessEq => "<="
  | .greaterEq => ">="
  | .and => "and"
  | .or => "or"

end BinaryOp

/-- The operators with one operand. -/
inductive UnaryOp
  | neg
  | not
  deriving DecidableEq, Repr

namespace UnaryOp

def symbol : UnaryOp → String
  | .neg => "-"
  | .not => "not"

end UnaryOp

/-- An expression.  Its first component is the span it was read from. -/
inductive Expr
  | null (span : Span)
  | boolean (span : Span) (b : Bool)
  | integer (span : Span) (n : Int64)
  /-- An integer beyond 64 bits, by its digits. -/
  | big (span : Span) (digits : String)
  | float (span : Span) (x : Float)
  | string (span : Span) (s : String)
  | interpolation (span : Span) (pieces : List (Piece Expr))
  | list (span : Span) (items : List (Item Expr))
  | record (span : Span) (entries : List (Entry Expr))
  | name (span : Span) (s : String)
  | member (span : Span) (object : Expr) (key : Name)
  | index (span : Span) (object key : Expr)
  | call (span : Span) (callee : Expr) (arguments : List Expr)
  | binary (span : Span) (op : BinaryOp) (left right : Expr)
  | unary (span : Span) (op : UnaryOp) (operand : Expr)
  /-- The left operand unless it is null. -/
  | coalesce (span : Span) (left right : Expr)
  | branch (span : Span) (condition yes no : Expr)
  | binding (span : Span) (key : Name) (value body : Expr)
  | lambda (span : Span) (parameters : List Name) (body : Expr)
  | parenthesized (span : Span) (inner : Expr)

namespace Expr

/-- The span that the expression was read from. -/
def span : Expr → Span
  | null s | boolean s _ | integer s _ | big s _ | float s _ | string s _
  | interpolation s _ | list s _ | record s _ | name s _ | member s _ _ | index s _ _
  | call s _ _ | binary s _ _ _ | unary s _ _ | coalesce s _ _ | branch s _ _ _
  | binding s _ _ _ | lambda s _ _ | parenthesized s _ => s

instance : Inhabited Expr := ⟨null default⟩

end Expr
end Formula
end Workbook
