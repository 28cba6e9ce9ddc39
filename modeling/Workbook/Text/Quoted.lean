/-
Texts in double quotes, with everything that would not print replaced by an
escape.
-/
import Workbook.Text.Property

namespace Workbook
namespace Text
namespace Quoted

/-- A code point in braces, in lower case hexadecimal. -/
def codePoint (c : Char) : List Char :=
  ['\\', 'u', '{'] ++ Nat.toDigits 16 c.toNat ++ ['}']

/-- One character inside quotes.  A mark that joins its neighbour is escaped
even though it prints, so that it does not join the quote. -/
def encodeChar (c : Char) : List Char :=
  if c = '\x00' then ['\\', '0']
  else if c = '\t' then ['\\', 't']
  else if c = '\r' then ['\\', 'r']
  else if c = '\n' then ['\\', 'n']
  else if c = '"' then ['\\', '"']
  else if c = '\\' then ['\\', '\\']
  else if isExtending c then codePoint c
  else if isPrintable c then [c]
  else codePoint c

end Quoted

/-- The text in double quotes. -/
def quoted (s : String) : String :=
  String.ofList (['"'] ++ s.toList.flatMap Quoted.encodeChar ++ ['"'])

end Text
end Workbook
