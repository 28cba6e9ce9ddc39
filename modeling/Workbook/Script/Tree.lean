/-
The syntax trees of scripts in JSON.
-/
import Workbook.Script
import Workbook.Syntax.Tree

namespace Workbook
namespace Script

open Json (node part bits)

mutual

/-- An expression in JSON. -/
def Expr.json : Expr → Json
  | .undefined s => node "undefined" s []
  | .null s => node "null" s []
  | .boolean s b => node "bool" s [.bool b]
  | .number s x => node "num" s [bits x]
  | .string s t => node "str" s [.string t]
  | .template s pieces => node "template" s [.array (jsonPieces pieces)]
  | .array s items => node "array" s [.array (jsonItems items)]
  | .object s entries => node "object" s [.array (jsonEntries entries)]
  | .name s t => node "id" s [.string t]
  | .member s object k => node "member" s [object.json, k.json]
  | .index s object key => node "index" s [object.json, key.json]
  | .call s callee arguments => node "call" s [callee.json, .array (jsonItems arguments)]
  | .unary s op operand => node "un" s [.string op.symbol, operand.json]
  | .update s increment first target =>
    node "update" s [.string (if increment then "++" else "--"), .bool first, target.json]
  | .binary s op left right => node "bin" s [.string op.symbol, left.json, right.json]
  | .logical s op left right => node "logical" s [.string op.symbol, left.json, right.json]
  | .conditional s c yes no => node "cond" s [c.json, yes.json, no.json]
  | .assign s op target value => node "assign" s [.string op.symbol, target.json, value.json]
  | .function f => node "function" f.span [f.json]

def jsonPieces : List (Piece Expr) → List Json
  | [] => []
  | .text s :: rest => part "lit" (.string s) :: jsonPieces rest
  | .hole e :: rest => part "expr" e.json :: jsonPieces rest

def jsonItems : List (Item Expr) → List Json
  | [] => []
  | .one e :: rest => part "item" e.json :: jsonItems rest
  | .spread e :: rest => part "spread" e.json :: jsonItems rest

def jsonEntries : List (Entry Expr) → List Json
  | [] => []
  | .field k e :: rest => .array [.string "field", k.json, e.json] :: jsonEntries rest
  | .spread e :: rest => part "spread" e.json :: jsonEntries rest

/-- An expression that may be missing, in JSON. -/
def jsonOption : Option Expr → Json
  | some e => e.json
  | none => .null

/-- A function in JSON: its name, parameters, body and span. -/
def Function.json : Function → Json
  | .mk name parameters body span =>
    .array [.ofOption (name.map Name.json), .array (parameters.map Name.json), body.json, span.json]

def Body.json : Body → Json
  | .block body => part "block" (.array (jsonStatements body))
  | .expr e => part "expr" e.json

/-- A statement in JSON. -/
def Stmt.json : Stmt → Json
  | .declaration s how k value => node how.word s [k.json, jsonOption value]
  | .function f => node "function" f.span [f.json]
  | .branch s c yes no => node "if" s [c.json, yes.json, jsonBranch no]
  | .whileLoop s c body => node "while" s [c.json, body.json]
  | .forLoop s start c step body =>
    node "for" s [jsonBranch start, jsonOption c, jsonOption step, body.json]
  | .forOf s how k items body =>
    node "forof" s [.string how.word, k.json, items.json, body.json]
  | .returns s value => node "return" s [jsonOption value]
  | .breaks s => node "break" s []
  | .continues s => node "continue" s []
  | .throws s value => node "throw" s [value.json]
  | .block s body => node "block" s [.array (jsonStatements body)]
  | .expr e => node "expr" e.span [e.json]
  | .empty s => node "empty" s []

/-- A statement that may be missing, in JSON. -/
def jsonBranch : Option Stmt → Json
  | some st => st.json
  | none => .null

def jsonStatements : List Stmt → List Json
  | [] => []
  | st :: rest => st.json :: jsonStatements rest

end

/-- A script in JSON. -/
def Program.json (p : Program) : Json :=
  node "script" p.span [.array (jsonStatements p.body)]

end Script
end Workbook
