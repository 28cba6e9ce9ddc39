/-
Scripts as tokens.

An expression is written with parentheses where a part of it holds its operands less tightly than its
place asks for (`Print.within`).  How tightly, from the loosest to the tightest:

*  1: assignments and arrows
*  2: `? :`
*  3: `??`;  4: `||`;  5: `&&`
*  6: equalities;  7: comparisons;  8: `+` and `-`;  9: `*`, `/` and `%`
* 10: `**`, which groups to the right
* 11: signs, `!`, `typeof`, `delete`, and `++` and `--` in front of an operand
* 12: `++` and `--` after an operand
* 13: members, indexes and calls
* 14: what stands for itself

Two places need more care than that: the value of an arrow may not begin with a brace, nor an
expression that is a statement with what begins a block or a function (`Print.guarded`).

A print also counts how many levels of nesting its parts open.

Not every tree is written by a script: `Expr.regular` says which ones are.  What a script leaves open
is where its parts stand, which `Expr.unplaced` forgets.
-/
import Workbook.Script
import Workbook.Token

namespace Workbook

/-- The name without the place where it stands. -/
def Name.unplaced (n : Name) : Name :=
  ⟨n.text, default⟩

namespace Script

open Token (Kind Symbol Keyword)

/-! ## Trees without places -/

mutual

/-- The expression without the places where its parts stand. -/
def Expr.unplaced : Expr → Expr
  | .undefined _ => .undefined default
  | .null _ => .null default
  | .boolean _ b => .boolean default b
  | .number _ x => .number default x
  | .string _ s => .string default s
  | .template _ pieces => .template default (unplacedPieces pieces)
  | .array _ items => .array default (unplacedItems items)
  | .object _ entries => .object default (unplacedEntries entries)
  | .name _ s => .name default s
  | .member _ object key => .member default object.unplaced key.unplaced
  | .index _ object key => .index default object.unplaced key.unplaced
  | .call _ callee arguments => .call default callee.unplaced (unplacedItems arguments)
  | .unary _ op operand => .unary default op operand.unplaced
  | .update _ increment first target => .update default increment first target.unplaced
  | .binary _ op left right => .binary default op left.unplaced right.unplaced
  | .logical _ op left right => .logical default op left.unplaced right.unplaced
  | .conditional _ condition yes no =>
    .conditional default condition.unplaced yes.unplaced no.unplaced
  | .assign _ op target value => .assign default op target.unplaced value.unplaced
  | .function f => .function f.unplaced

def unplacedPieces : List (Piece Expr) → List (Piece Expr)
  | [] => []
  | .text s :: rest => .text s :: unplacedPieces rest
  | .hole e :: rest => .hole e.unplaced :: unplacedPieces rest

def unplacedItems : List (Item Expr) → List (Item Expr)
  | [] => []
  | .one e :: rest => .one e.unplaced :: unplacedItems rest
  | .spread e :: rest => .spread e.unplaced :: unplacedItems rest

def unplacedEntries : List (Entry Expr) → List (Entry Expr)
  | [] => []
  | .field key e :: rest => .field key.unplaced e.unplaced :: unplacedEntries rest
  | .spread e :: rest => .spread e.unplaced :: unplacedEntries rest

def unplacedOption : Option Expr → Option Expr
  | some e => some e.unplaced
  | none => none

def Function.unplaced : Function → Function
  | .mk name parameters body _ =>
    .mk (name.map Name.unplaced) (parameters.map Name.unplaced) body.unplaced default

def Body.unplaced : Body → Body
  | .block body => .block (unplacedStatements body)
  | .expr e => .expr e.unplaced

def Stmt.unplaced : Stmt → Stmt
  | .declaration _ how key value => .declaration default how key.unplaced (unplacedOption value)
  | .function f => .function f.unplaced
  | .branch _ condition yes no =>
    .branch default condition.unplaced yes.unplaced (unplacedBranch no)
  | .whileLoop _ condition body => .whileLoop default condition.unplaced body.unplaced
  | .forLoop _ start condition step body =>
    .forLoop default (unplacedBranch start) (unplacedOption condition) (unplacedOption step)
      body.unplaced
  | .forOf _ how key items body => .forOf default how key.unplaced items.unplaced body.unplaced
  | .returns _ value => .returns default (unplacedOption value)
  | .breaks _ => .breaks default
  | .continues _ => .continues default
  | .throws _ value => .throws default value.unplaced
  | .block _ body => .block default (unplacedStatements body)
  | .expr e => .expr e.unplaced
  | .empty _ => .empty default

def unplacedBranch : Option Stmt → Option Stmt
  | some s => some s.unplaced
  | none => none

def unplacedStatements : List Stmt → List Stmt
  | [] => []
  | s :: rest => s.unplaced :: unplacedStatements rest

end

attribute [simp] Expr.unplaced unplacedPieces unplacedItems unplacedEntries unplacedOption
  Function.unplaced Body.unplaced Stmt.unplaced unplacedBranch unplacedStatements

def unplacedPiece : Piece Expr → Piece Expr
  | .text s => .text s
  | .hole e => .hole e.unplaced

def unplacedItem : Item Expr → Item Expr
  | .one e => .one e.unplaced
  | .spread e => .spread e.unplaced

def unplacedEntry : Entry Expr → Entry Expr
  | .field key e => .field key.unplaced e.unplaced
  | .spread e => .spread e.unplaced

theorem unplacedPieces_eq (pieces : List (Piece Expr)) :
    unplacedPieces pieces = pieces.map unplacedPiece := by
  induction pieces with
  | nil => rfl
  | cons p rest ih => cases p <;> rw [unplacedPieces, ih] <;> rfl

theorem unplacedItems_eq (items : List (Item Expr)) :
    unplacedItems items = items.map unplacedItem := by
  induction items with
  | nil => rfl
  | cons i rest ih => cases i <;> rw [unplacedItems, ih] <;> rfl

theorem unplacedEntries_eq (entries : List (Entry Expr)) :
    unplacedEntries entries = entries.map unplacedEntry := by
  induction entries with
  | nil => rfl
  | cons a rest ih => cases a <;> rw [unplacedEntries, ih] <;> rfl

/-! ## Regular trees -/

namespace Stmt

/-- Whether an `else` behind the statement would belong to it. -/
def dangles : Stmt → Bool
  | .branch _ _ _ none => true
  | .branch _ _ _ (some no) => no.dangles
  | .whileLoop _ _ body | .forLoop _ _ _ _ body | .forOf _ _ _ _ body => body.dangles
  | _ => false

/-- Whether the statement may stand before the first semicolon of a loop. -/
def startsLoop : Stmt → Bool
  | .declaration .. | .expr _ => true
  | _ => false

end Stmt

namespace Body

def isBlock : Body → Bool
  | .block _ => true
  | .expr _ => false

end Body

/-- Whether some piece holds an expression. -/
def hasHole (pieces : List (Piece Expr)) : Bool :=
  pieces.any fun p => match p with
    | .hole _ => true
    | .text _ => false

mutual

/-- Whether a script can write the expression.  Only targets are assigned to and updated, a string with
expressions has one, its texts are not empty and no two of them follow each other, and a function
whose body is an expression has no name. -/
def Expr.regular : Expr → Bool
  | .undefined _ | .null _ | .boolean _ _ | .number _ _ | .string _ _ | .name _ _ => true
  | .template _ pieces => hasHole pieces && regularPieces pieces false
  | .array _ items => regularItems items
  | .object _ entries => regularEntries entries
  | .member _ object _ => object.regular
  | .index _ object key => object.regular && key.regular
  | .call _ callee arguments => callee.regular && regularItems arguments
  | .unary _ _ operand => operand.regular
  | .update _ _ _ target => target.isTarget && target.regular
  | .binary _ _ left right | .logical _ _ left right => left.regular && right.regular
  | .conditional _ condition yes no => condition.regular && yes.regular && no.regular
  | .assign _ _ target value => target.isTarget && target.regular && value.regular
  | .function f => f.regular

/-- The truth value says whether a text comes before the pieces. -/
def regularPieces : List (Piece Expr) → Bool → Bool
  | [], _ => true
  | .text s :: rest, after => !after && !s.isEmpty && regularPieces rest true
  | .hole e :: rest, _ => e.regular && regularPieces rest false

def regularItems : List (Item Expr) → Bool
  | [] => true
  | .one e :: rest | .spread e :: rest => e.regular && regularItems rest

def regularEntries : List (Entry Expr) → Bool
  | [] => true
  | .field _ e :: rest | .spread e :: rest => e.regular && regularEntries rest

def regularOption : Option Expr → Bool
  | some e => e.regular
  | none => true

def Function.regular : Function → Bool
  | .mk name _ body _ => (name.isNone || body.isBlock) && body.regular

/-- The loops around a function are not around its body. -/
def Body.regular : Body → Bool
  | .block body => regularStatements body false
  | .expr e => e.regular

/-- Whether a script can write the statement, in a loop or not.  A constant has a value, a function has
a name and a block, an `else` belongs to the `if` that is meant, what stands before the first
semicolon of a loop is a declaration or an expression, and only a loop can be left. -/
def Stmt.regular : Stmt → Bool → Bool
  | .declaration _ how _ value, _ => (value.isSome || how = .variable) && regularOption value
  | .function f, _ => f.name.isSome && f.body.isBlock && f.regular
  | .branch _ condition yes no, loop =>
    condition.regular && yes.regular loop && regularBranch no loop && (no.isNone || !yes.dangles)
  | .whileLoop _ condition body, _ => condition.regular && body.regular true
  | .forLoop _ start condition step body, loop =>
    start.all Stmt.startsLoop && regularBranch start loop && regularOption condition &&
      regularOption step && body.regular true
  | .forOf _ _ _ items body, _ => items.regular && body.regular true
  | .returns _ value, _ => regularOption value
  | .breaks _, loop | .continues _, loop => loop
  | .throws _ value, _ => value.regular
  | .block _ body, loop => regularStatements body loop
  | .expr e, _ => e.regular
  | .empty _, _ => true

def regularBranch : Option Stmt → Bool → Bool
  | some s, loop => s.regular loop
  | none, _ => true

def regularStatements : List Stmt → Bool → Bool
  | [], _ => true
  | s :: rest, loop => s.regular loop && regularStatements rest loop

end

attribute [simp] Expr.regular regularPieces regularItems regularEntries regularOption
  Function.regular Body.regular Stmt.regular regularBranch regularStatements

/-! ## Prints -/

/-- The kinds of tokens in a row, and how many levels of nesting they open at most. -/
structure Print where
  kinds : List Kind
  levels : Nat

namespace Print

def empty : Print := ⟨[], 0⟩

def token (k : Kind) : Print := ⟨[k], 0⟩

def symbol (x : Symbol) : Print := token (.symbol x)

def word (w : Keyword) : Print := token (.word w)

instance : Append Print where
  append a b := ⟨a.kinds ++ b.kinds, max a.levels b.levels⟩

/-- What stands one level deeper. -/
def inside (a : Print) : Print := ⟨a.kinds, a.levels + 1⟩

def parenthesized (a : Print) : Print :=
  symbol .leftParen ++ (a.inside ++ symbol .rightParen)

/-- What holds its operands as tightly as `q`, at a place that asks for `p`. -/
def within (p q : Nat) (a : Print) : Print :=
  if p ≤ q then a else a.parenthesized

/-- What may not begin in some way is put in parentheses if it does, where care is taken. -/
def guarded (careful : Bool) (begins : List Kind → Bool) (a : Print) : Print :=
  if careful && begins a.kinds then a.parenthesized else a

def commas : List Print → Print
  | [] => empty
  | [a] => a
  | a :: b :: rest => a ++ (symbol .comma ++ commas (b :: rest))

/-- What comes after the first token. -/
def behind (a : Print) : Print := ⟨a.kinds.drop 1, a.levels⟩

@[simp] theorem behind_token (k : Kind) (a : Print) : (token k ++ a).behind = a := by
  show (⟨a.kinds, max 0 a.levels⟩ : Print) = a
  rw [Nat.zero_max]

end Print

/-- Whether the tokens begin with a brace. -/
def beginsBlock (ks : List Kind) : Bool :=
  ks.head? = some (.symbol .leftBrace)

/-- Whether the tokens begin a block or a function with a name. -/
def beginsStatement (ks : List Kind) : Bool :=
  beginsBlock ks ||
    (ks.head? = some (.word .functionWord) && (ks.drop 1).head?.any Kind.isName)

/-! ## Operators -/

namespace BinaryOp

def kind : BinaryOp → Kind
  | .add => .symbol .plus
  | .sub => .symbol .minus
  | .mul => .symbol .star
  | .div => .symbol .slash
  | .mod => .symbol .percent
  | .pow => .symbol .starStar
  | .eq => .symbol .eqEq
  | .notEq => .symbol .bangEq
  | .strictEq => .symbol .eqEqEq
  | .strictNotEq => .symbol .bangEqEq
  | .less => .symbol .less
  | .greater => .symbol .greater
  | .lessEq => .symbol .lessEq
  | .greaterEq => .symbol .greaterEq

/-- How tightly the operator holds its operands. -/
def prec : BinaryOp → Nat
  | .eq | .notEq | .strictEq | .strictNotEq => 6
  | .less | .greater | .lessEq | .greaterEq => 7
  | .add | .sub => 8
  | .mul | .div | .mod => 9
  | .pow => 10

end BinaryOp

namespace LogicalOp

def kind : LogicalOp → Kind
  | .and => .symbol .ampAmp
  | .or => .symbol .pipePipe
  | .coalesce => .symbol .questionQuestion

def prec : LogicalOp → Nat
  | .coalesce => 3
  | .or => 4
  | .and => 5

end LogicalOp

namespace UnaryOp

def kind : UnaryOp → Kind
  | .neg => .symbol .minus
  | .plus => .symbol .plus
  | .not => .symbol .bang
  | .typeof => .word .typeofWord
  | .delete => .word .deleteWord

end UnaryOp

namespace AssignOp

def mark : AssignOp → Symbol
  | .plain => .eq
  | .add => .plusEq
  | .sub => .minusEq
  | .mul => .starEq
  | .div => .slashEq

end AssignOp

/-- The sign that adds one, or takes one away. -/
def stepMark (increment : Bool) : Symbol :=
  if increment then .plusPlus else .minusMinus

namespace Declarator

def keyword : Declarator → Keyword
  | .variable => .letWord
  | .constant => .constWord

end Declarator

/-! ## Scripts -/

/-- What is left to choose: whether care is taken where parentheses alone do not tell, and whether a
function without a name is written with an arrow though its body is a block. -/
structure Style where
  careful : Bool
  arrows : Bool

/-- Whether the function is written with an arrow. -/
def Function.isArrow (style : Style) (f : Function) : Bool :=
  !f.body.isBlock || (f.name.isNone && style.arrows)

/-- How tightly the expression holds its operands. -/
def Expr.prec (style : Style) : Expr → Nat
  | .assign .. => 1
  | .conditional .. => 2
  | .logical _ op _ _ => op.prec
  | .binary _ op _ _ => op.prec
  | .unary .. => 11
  | .update _ _ first _ => if first then 11 else 12
  | .member .. | .index .. | .call .. => 13
  | .function f => if f.isArrow style then 1 else 14
  | _ => 14

namespace Print

def name (n : Name) : Print :=
  token (.name n.text)

def parameters (ps : List Name) : Print :=
  symbol .leftParen ++ (commas (ps.map name) ++ symbol .rightParen)

/-- What stands before an arrow: a name alone, or names in parentheses. -/
def arrowParameters : List Name → Print
  | [p] => name p
  | ps => parameters ps

def braces (a : Print) : Print :=
  symbol .leftBrace ++ (a ++ symbol .rightBrace)

/-- A function whose body is written as `body`. -/
def function (style : Style) (f : Function) (body : Print) : Print :=
  if f.isArrow style then arrowParameters f.parameters ++ (symbol .arrow ++ body)
  else word .functionWord ++ (f.name.elim empty name ++ (parameters f.parameters ++ body))

/-- An entry whose value is written as `value`: a name alone, which stands for key and value, a
function that has the key as its name, or a key and a value. -/
def field (key : Name) (value : Expr) (a : Print) : Print :=
  match value with
  | .name _ s => if s = key.text then name key else name key ++ (symbol .colon ++ a.inside)
  | .function f =>
    if f.name.map Name.text = some key.text then a.behind
    else name key ++ (symbol .colon ++ a.inside)
  | _ => name key ++ (symbol .colon ++ a.inside)

end Print

open Print (token symbol word braces commas)

mutual

/-- The tokens that write an expression. -/
def Expr.print (style : Style) : Expr → Print
  | .undefined _ => word .undefinedWord
  | .null _ => word .nullWord
  | .boolean _ b => word (if b then .trueWord else .falseWord)
  | .number _ x => token (.number (.float x))
  | .string _ s => token (.string s)
  | .template _ pieces => printPieces style pieces .stringStart ""
  | .array _ items => symbol .leftBracket ++ (commas (printItems style items) ++ symbol .rightBracket)
  | .object _ entries =>
    symbol .leftBrace ++ (commas (printEntries style entries) ++ symbol .rightBrace)
  | .name _ s => token (.name s)
  | .member _ object key =>
    (object.print style).within 13 (object.prec style) ++ (symbol .dot ++ .name key)
  | .index _ object key =>
    (object.print style).within 13 (object.prec style) ++
      (symbol .leftBracket ++ ((key.print style).inside ++ symbol .rightBracket))
  | .call _ callee arguments =>
    (callee.print style).within 13 (callee.prec style) ++
      (symbol .leftParen ++ (commas (printItems style arguments) ++ symbol .rightParen))
  | .unary _ op operand =>
    token op.kind ++ ((operand.print style).within 11 (operand.prec style)).inside
  | .update _ increment first target =>
    if first then
      symbol (stepMark increment) ++ (target.print style).within 11 (target.prec style)
    else (target.print style).within 13 (target.prec style) ++ symbol (stepMark increment)
  | .binary _ op left right =>
    if op = .pow then
      (left.print style).within 11 (left.prec style) ++
        (token op.kind ++ ((right.print style).within 10 (right.prec style)).inside)
    else
      (left.print style).within op.prec (left.prec style) ++
        (token op.kind ++ (right.print style).within (op.prec + 1) (right.prec style))
  | .logical _ op left right =>
    (left.print style).within op.prec (left.prec style) ++
      (token op.kind ++ (right.print style).within (op.prec + 1) (right.prec style))
  | .conditional _ condition yes no =>
    (condition.print style).within 3 (condition.prec style) ++
      (symbol .question ++ ((yes.print style).inside ++ (symbol .colon ++ (no.print style).inside)))
  | .assign _ op target value =>
    (target.print style).within 2 (target.prec style) ++
      (symbol op.mark ++ (value.print style).inside)
  | .function f => f.print style

/-- The pieces of a string behind a text, which `mark` makes a token of before an expression. -/
def printPieces (style : Style) : List (Piece Expr) → (String → Kind) → String → Print
  | [], _, text => token (.stringEnd text)
  | .text s :: rest, mark, _ => printPieces style rest mark s
  | .hole e :: rest, mark, text =>
    token (mark text) ++ (token .holeStart ++ ((e.print style).inside ++
      (token .holeEnd ++ printPieces style rest .stringPart "")))

def printItems (style : Style) : List (Item Expr) → List Print
  | [] => []
  | .one e :: rest => (e.print style).inside :: printItems style rest
  | .spread e :: rest =>
    (symbol .dotDotDot ++ (e.print style).inside) :: printItems style rest

def printEntries (style : Style) : List (Entry Expr) → List Print
  | [] => []
  | .field key e :: rest => .field key e (e.print style) :: printEntries style rest
  | .spread e :: rest =>
    (symbol .dotDotDot ++ (e.print style).inside) :: printEntries style rest

def printOption (style : Style) : Option Expr → Print
  | some e => (e.print style).inside
  | none => .empty

def Function.print (style : Style) : Function → Print
  | .mk name parameters body span =>
    .function style (.mk name parameters body span) (body.print style)

def Body.print (style : Style) : Body → Print
  | .block body => braces (printStatements style body)
  | .expr e => ((e.print style).guarded style.careful beginsBlock).inside

/-- The tokens that write a statement. -/
def Stmt.print (style : Style) : Stmt → Print
  | .declaration _ how key value =>
    word how.keyword ++ (.name key ++ (value.elim .empty (fun _ => symbol .eq) ++
      (printOption style value ++ symbol .semicolon)))
  | .function f => f.print style
  | .branch _ condition yes no =>
    word .ifWord ++ (symbol .leftParen ++ ((condition.print style).inside ++
      (symbol .rightParen ++ (yes.print style ++ printElse style no))))
  | .whileLoop _ condition body =>
    word .whileWord ++ (symbol .leftParen ++ ((condition.print style).inside ++
      (symbol .rightParen ++ body.print style)))
  | .forLoop _ start condition step body =>
    word .forWord ++ (symbol .leftParen ++ (printStart style start ++
      (printOption style condition ++ (symbol .semicolon ++
        (printOption style step ++ (symbol .rightParen ++ body.print style))))))
  | .forOf _ how key items body =>
    word .forWord ++ (symbol .leftParen ++ (word how.keyword ++ (.name key ++
      (word .ofWord ++ ((items.print style).inside ++ (symbol .rightParen ++ body.print style))))))
  | .returns _ value => word .returnWord ++ (printOption style value ++ symbol .semicolon)
  | .breaks _ => word .breakWord ++ symbol .semicolon
  | .continues _ => word .continueWord ++ symbol .semicolon
  | .throws _ value => word .throwWord ++ ((value.print style).inside ++ symbol .semicolon)
  | .block _ body => braces (printStatements style body)
  | .expr e =>
    ((e.print style).guarded style.careful beginsStatement).inside ++ symbol .semicolon
  | .empty _ => symbol .semicolon

def printElse (style : Style) : Option Stmt → Print
  | some s => word .elseWord ++ s.print style
  | none => .empty

/-- What stands before the first semicolon of a loop, with the semicolon.  An expression may begin in
any way there. -/
def printStart (style : Style) : Option Stmt → Print
  | some (.expr e) => (e.print style).inside ++ symbol .semicolon
  | some s => s.print style
  | none => symbol .semicolon

def printStatements (style : Style) : List Stmt → Print
  | [] => .empty
  | s :: rest => s.print style ++ printStatements style rest

end

attribute [simp] Expr.print printPieces printItems printEntries printOption Function.print
  Body.print Stmt.print printElse printStart printStatements

def printItem (style : Style) : Item Expr → Print
  | .one e => (e.print style).inside
  | .spread e => symbol .dotDotDot ++ (e.print style).inside

def printEntry (style : Style) : Entry Expr → Print
  | .field key e => .field key e (e.print style)
  | .spread e => symbol .dotDotDot ++ (e.print style).inside

theorem printItems_eq (style : Style) (items : List (Item Expr)) :
    printItems style items = items.map (printItem style) := by
  induction items with
  | nil => rfl
  | cons i rest ih => cases i <;> rw [printItems, ih] <;> rfl

theorem printEntries_eq (style : Style) (entries : List (Entry Expr)) :
    printEntries style entries = entries.map (printEntry style) := by
  induction entries with
  | nil => rfl
  | cons a rest ih => cases a <;> rw [printEntries, ih] <;> rfl

end Script
end Workbook
