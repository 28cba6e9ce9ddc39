/-
Scripts: lists of statements, with expressions and functions.
-/
import Workbook.Syntax

namespace Workbook
namespace Script

/-- The operators with two operands that are both evaluated. -/
inductive BinaryOp
  | add | sub | mul | div | mod | pow
  | eq | notEq | strictEq | strictNotEq
  | less | greater | lessEq | greaterEq
  deriving DecidableEq, Repr

namespace BinaryOp

def symbol : BinaryOp → String
  | .add => "+"
  | .sub => "-"
  | .mul => "*"
  | .div => "/"
  | .mod => "%"
  | .pow => "**"
  | .eq => "=="
  | .notEq => "!="
  | .strictEq => "==="
  | .strictNotEq => "!=="
  | .less => "<"
  | .greater => ">"
  | .lessEq => "<="
  | .greaterEq => ">="

end BinaryOp

/-- The operators whose right operand is evaluated only if the left one does not
decide. -/
inductive LogicalOp
  | and | or | coalesce
  deriving DecidableEq, Repr

namespace LogicalOp

def symbol : LogicalOp → String
  | .and => "&&"
  | .or => "||"
  | .coalesce => "??"

end LogicalOp

/-- The operators with one operand. -/
inductive UnaryOp
  | neg | plus | not | typeof | delete
  deriving DecidableEq, Repr

namespace UnaryOp

def symbol : UnaryOp → String
  | .neg => "-"
  | .plus => "+"
  | .not => "!"
  | .typeof => "typeof"
  | .delete => "delete"

end UnaryOp

/-- Assignment, alone or after an operation with the old value. -/
inductive AssignOp
  | plain | add | sub | mul | div
  deriving DecidableEq, Repr

namespace AssignOp

def symbol : AssignOp → String
  | .plain => "="
  | .add => "+="
  | .sub => "-="
  | .mul => "*="
  | .div => "/="

/-- The operation that comes before the assignment. -/
def binary? : AssignOp → Option BinaryOp
  | .plain => none
  | .add => some .add
  | .sub => some .sub
  | .mul => some .mul
  | .div => some .div

end AssignOp

/-- Whether a declared name may be assigned again. -/
inductive Declarator
  | variable
  | constant
  deriving DecidableEq, Repr

namespace Declarator

def word : Declarator → String
  | .variable => "let"
  | .constant => "const"

end Declarator

mutual

/-- An expression.  Its first component is the span it was read from; a function
carries its own. -/
inductive Expr
  | undefined (span : Span)
  | null (span : Span)
  | boolean (span : Span) (b : Bool)
  | number (span : Span) (x : Float)
  | string (span : Span) (s : String)
  | template (span : Span) (pieces : List (Piece Expr))
  | array (span : Span) (items : List (Item Expr))
  | object (span : Span) (entries : List (Entry Expr))
  | name (span : Span) (s : String)
  | member (span : Span) (object : Expr) (key : Name)
  | index (span : Span) (object key : Expr)
  | call (span : Span) (callee : Expr) (arguments : List (Item Expr))
  | unary (span : Span) (op : UnaryOp) (operand : Expr)
  /-- One added to or taken from a target; the value is the new one where the
  sign comes first and the old one otherwise. -/
  | update (span : Span) (increment first : Bool) (target : Expr)
  | binary (span : Span) (op : BinaryOp) (left right : Expr)
  | logical (span : Span) (op : LogicalOp) (left right : Expr)
  | conditional (span : Span) (condition yes no : Expr)
  | assign (span : Span) (op : AssignOp) (target value : Expr)
  | function (f : Function)

/-- A statement. -/
inductive Stmt
  | declaration (span : Span) (how : Declarator) (key : Name) (value : Option Expr)
  | function (f : Function)
  | branch (span : Span) (condition : Expr) (yes : Stmt) (no : Option Stmt)
  | whileLoop (span : Span) (condition : Expr) (body : Stmt)
  | forLoop (span : Span) (start : Option Stmt) (condition step : Option Expr) (body : Stmt)
  | forOf (span : Span) (how : Declarator) (key : Name) (items : Expr) (body : Stmt)
  | returns (span : Span) (value : Option Expr)
  | breaks (span : Span)
  | continues (span : Span)
  | throws (span : Span) (value : Expr)
  | block (span : Span) (body : List Stmt)
  | expr (e : Expr)
  | empty (span : Span)

/-- A function, declared or as an expression. -/
inductive Function
  | mk (name : Option Name) (parameters : List Name) (body : Body) (span : Span)

/-- What a function does: statements, or one expression that is its value. -/
inductive Body
  | block (body : List Stmt)
  | expr (e : Expr)

end

namespace Function

def name : Function → Option Name
  | mk n _ _ _ => n

def parameters : Function → List Name
  | mk _ ps _ _ => ps

def body : Function → Body
  | mk _ _ b _ => b

def span : Function → Span
  | mk _ _ _ s => s

end Function

namespace Expr

/-- The span that the expression was read from. -/
def span : Expr → Span
  | undefined s | null s | boolean s _ | number s _ | string s _ | template s _ | array s _
  | object s _ | name s _ | member s _ _ | index s _ _ | call s _ _ | unary s _ _
  | update s _ _ _ | binary s _ _ _ | logical s _ _ _ | conditional s _ _ _
  | assign s _ _ _ => s
  | function f => f.span

/-- Whether the expression stands for a place that can be written to. -/
def isTarget : Expr → Bool
  | name .. | member .. | index .. => true
  | _ => false

instance : Inhabited Expr := ⟨null default⟩

end Expr

namespace Stmt

/-- The span that the statement was read from. -/
def span : Stmt → Span
  | declaration s _ _ _ | branch s _ _ _ | whileLoop s _ _ | forLoop s _ _ _ _
  | forOf s _ _ _ _ | returns s _ | breaks s | continues s | throws s _ | block s _ | empty s => s
  | function f => f.span
  | expr e => e.span

instance : Inhabited Stmt := ⟨empty default⟩

end Stmt

/-- The statements of a source text. -/
structure Program where
  body : List Stmt
  span : Span

end Script
end Workbook
