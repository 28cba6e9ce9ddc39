/-
The syntax trees of formulas in JSON.
-/
import Workbook.Formula
import Workbook.Syntax.Tree

namespace Workbook
namespace Formula
namespace Expr

open Json (node part bits)

mutual

/-- An expression in JSON. -/
def json : Expr → Json
  | .null s => node "null" s []
  | .boolean s b => node "bool" s [.bool b]
  | .integer s n => node "int" s [.string (Json.integerText n.toInt)]
  | .big s digits => node "bigint" s [.string digits]
  | .float s x => node "float" s [bits x]
  | .string s t => node "str" s [.string t]
  | .interpolation s pieces => node "interp" s [.array (jsonPieces pieces)]
  | .list s items => node "list" s [.array (jsonItems items)]
  | .record s entries => node "record" s [.array (jsonEntries entries)]
  | .name s t => node "id" s [.string t]
  | .member s object k => node "member" s [json object, k.json]
  | .index s object key => node "index" s [json object, json key]
  | .call s callee arguments => node "call" s [json callee, .array (jsonAll arguments)]
  | .binary s op left right => node "bin" s [.string op.symbol, json left, json right]
  | .unary s op operand => node "un" s [.string op.symbol, json operand]
  | .coalesce s left right => node "coalesce" s [json left, json right]
  | .branch s c yes no => node "if" s [json c, json yes, json no]
  | .binding s k value body => node "let" s [k.json, json value, json body]
  | .lambda s parameters body => node "fn" s [.array (parameters.map Name.json), json body]
  | .parenthesized s inner => node "paren" s [json inner]

def jsonAll : List Expr → List Json
  | [] => []
  | e :: rest => json e :: jsonAll rest

def jsonPieces : List (Piece Expr) → List Json
  | [] => []
  | .text s :: rest => part "lit" (.string s) :: jsonPieces rest
  | .hole e :: rest => part "expr" (json e) :: jsonPieces rest

def jsonItems : List (Item Expr) → List Json
  | [] => []
  | .one e :: rest => part "item" (json e) :: jsonItems rest
  | .spread e :: rest => part "spread" (json e) :: jsonItems rest

def jsonEntries : List (Entry Expr) → List Json
  | [] => []
  | .field k e :: rest => .array [.string "field", k.json, json e] :: jsonEntries rest
  | .spread e :: rest => part "spread" (json e) :: jsonEntries rest

end

end Expr
end Formula
end Workbook
