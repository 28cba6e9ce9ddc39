/-
JSON text: on one line without spaces, or spread over lines.
-/
import Workbook.Json
import Workbook.Number.Notation

namespace Workbook
namespace Json

/-- The two hexadecimal digits of a control character. -/
def hexPair (n : Nat) : List Char :=
  [Number.digitChar (n / 16), Number.digitChar (n % 16)]

/-- One character inside quotes.  Only quotes, backslashes and control
characters are escaped. -/
def escapeChar (c : Char) : List Char :=
  if c = '"' then ['\\', '"']
  else if c = '\\' then ['\\', '\\']
  else if c = '\n' then ['\\', 'n']
  else if c = '\r' then ['\\', 'r']
  else if c = '\t' then ['\\', 't']
  else if c = '\x08' then ['\\', 'b']
  else if c = '\x0c' then ['\\', 'f']
  else if c.toNat < 32 then ['\\', 'u', '0', '0'] ++ hexPair c.toNat
  else [c]

def quoteString (s : String) : String :=
  String.ofList (['"'] ++ s.toList.flatMap escapeChar ++ ['"'])

/-- A double in JSON text; one that is not finite has no number there. -/
def floatText (x : Float) : String :=
  match Number.exact x with
  | .finite negative m e => Number.json.finite negative m e
  | _ => "null"

def integerText (n : Int) : String :=
  String.ofList ((if n < 0 then ['-'] else []) ++ Number.digits n.natAbs)

mutual

/-- The text on one line. -/
def compact : Json → String
  | .null => "null"
  | .bool true => "true"
  | .bool false => "false"
  | .integer n => integerText n
  | .float x => floatText x
  | .string s => quoteString s
  | .array items => "[" ++ ",".intercalate (compactItems items) ++ "]"
  | .object entries => "\x7b" ++ ",".intercalate (compactEntries entries) ++ "\x7d"

def compactItems : List Json → List String
  | [] => []
  | v :: rest => compact v :: compactItems rest

def compactEntries : List (String × Json) → List String
  | [] => []
  | (k, v) :: rest => (quoteString k ++ ":" ++ compact v) :: compactEntries rest

end

/-- A line break and an indentation of two spaces a level. -/
def newLine (level : Nat) : String :=
  "\n" ++ String.ofList (List.replicate (2 * level) ' ')

mutual

/-- The text with every item and entry on a line of its own. -/
def spread (level : Nat) : Json → String
  | .array (v :: rest) =>
    "[" ++ newLine (level + 1) ++
      ("," ++ newLine (level + 1)).intercalate (spread (level + 1) v :: spreadItems (level + 1) rest) ++
      newLine level ++ "]"
  | .object ((k, v) :: rest) =>
    "\x7b" ++ newLine (level + 1) ++
      ("," ++ newLine (level + 1)).intercalate
        ((quoteString k ++ ": " ++ spread (level + 1) v) :: spreadEntries (level + 1) rest) ++
      newLine level ++ "\x7d"
  | v => compact v

def spreadItems (level : Nat) : List Json → List String
  | [] => []
  | v :: rest => spread level v :: spreadItems level rest

def spreadEntries (level : Nat) : List (String × Json) → List String
  | [] => []
  | (k, v) :: rest => (quoteString k ++ ": " ++ spread level v) :: spreadEntries level rest

end

/-- The text with every item and entry on a line of its own. -/
def pretty (v : Json) : String :=
  spread 0 v

end Json
end Workbook
