/-
The tokens of both languages.
-/
import Workbook.Language
import Workbook.Number.Notation
import Workbook.Number.Reading
import Workbook.Source

namespace Workbook
namespace Token

/-- A number as it is written: an integer of 64 bits, a longer one as its digits
without leading zeros, or one with a fraction or an exponent. -/
inductive Literal
  | integer (n : Int64)
  | big (digits : String)
  | float (x : Float)
  deriving DecidableEq

namespace Literal

def text : Literal → String
  | .integer n => String.ofList ((if n < 0 then ['-'] else []) ++ Number.digits n.toInt.natAbs)
  | .big digits => digits
  | .float x => Number.literalText x

/-- The literal as a double, the only kind of number in scripts. -/
def toFloat : Literal → Float
  | .integer n => Number.ofInt n.toInt
  | .big digits => Number.ofInt (Number.ofDigits digits.toList)
  | .float x => x

end Literal

/-- The reserved words. -/
inductive Keyword
  | trueWord | falseWord | nullWord | ifWord | elseWord | letWord
  | andWord | orWord | notWord | thenWord | inWord | fnWord
  | undefinedWord | constWord | functionWord | returnWord | whileWord | forWord | ofWord
  | breakWord | continueWord | throwWord | typeofWord | deleteWord
  deriving DecidableEq, Repr

namespace Keyword

def text : Keyword → String
  | .trueWord => "true"
  | .falseWord => "false"
  | .nullWord => "null"
  | .ifWord => "if"
  | .elseWord => "else"
  | .letWord => "let"
  | .andWord => "and"
  | .orWord => "or"
  | .notWord => "not"
  | .thenWord => "then"
  | .inWord => "in"
  | .fnWord => "fn"
  | .undefinedWord => "undefined"
  | .constWord => "const"
  | .functionWord => "function"
  | .returnWord => "return"
  | .whileWord => "while"
  | .forWord => "for"
  | .ofWord => "of"
  | .breakWord => "break"
  | .continueWord => "continue"
  | .throwWord => "throw"
  | .typeofWord => "typeof"
  | .deleteWord => "delete"

/-- The words reserved in both languages. -/
def shared : List Keyword :=
  [.trueWord, .falseWord, .nullWord, .ifWord, .elseWord, .letWord]

/-- The words reserved in a language. -/
def all : Language → List Keyword
  | .formula => shared ++ [.andWord, .orWord, .notWord, .thenWord, .inWord, .fnWord]
  | .script => shared ++
      [.undefinedWord, .constWord, .functionWord, .returnWord, .whileWord, .forWord, .ofWord,
        .breakWord, .continueWord, .throwWord, .typeofWord, .deleteWord]

/-- The reserved word with this text; a word of the other language is none. -/
def ofText? (l : Language) (s : String) : Option Keyword :=
  (all l).find? (·.text == s)

end Keyword

/-- Operators and punctuation. -/
inductive Symbol
  | plus | minus | star | starStar | slash | percent
  | eqEq | bangEq | eqEqEq | bangEqEq | less | greater | lessEq | greaterEq
  | ampAmp | pipePipe | bang | questionQuestion | question
  | eq | plusEq | minusEq | starEq | slashEq | plusPlus | minusMinus | arrow | dotDotDot
  | leftParen | rightParen | leftBrace | rightBrace | leftBracket | rightBracket
  | comma | colon | semicolon | dot
  deriving DecidableEq, Repr

namespace Symbol

def text : Symbol → String
  | .plus => "+"
  | .minus => "-"
  | .star => "*"
  | .starStar => "**"
  | .slash => "/"
  | .percent => "%"
  | .eqEq => "=="
  | .bangEq => "!="
  | .eqEqEq => "==="
  | .bangEqEq => "!=="
  | .less => "<"
  | .greater => ">"
  | .lessEq => "<="
  | .greaterEq => ">="
  | .ampAmp => "&&"
  | .pipePipe => "||"
  | .bang => "!"
  | .questionQuestion => "??"
  | .question => "?"
  | .eq => "="
  | .plusEq => "+="
  | .minusEq => "-="
  | .starEq => "*="
  | .slashEq => "/="
  | .plusPlus => "++"
  | .minusMinus => "--"
  | .arrow => "=>"
  | .dotDotDot => "..."
  | .leftParen => "("
  | .rightParen => ")"
  | .leftBrace => "\x7b"
  | .rightBrace => "\x7d"
  | .leftBracket => "["
  | .rightBracket => "]"
  | .comma => ","
  | .colon => ":"
  | .semicolon => ";"
  | .dot => "."

/-- The symbols that are looked for in a language.  The first whose text begins
the input is taken, so a symbol comes after those that it begins. -/
def all : Language → List Symbol
  | .script =>
    [.eqEqEq, .bangEqEq, .dotDotDot,
      .plusPlus, .plusEq, .minusMinus, .minusEq, .starStar, .starEq, .slashEq, .eqEq, .arrow,
      .bangEq, .lessEq, .greaterEq, .ampAmp, .pipePipe, .questionQuestion,
      .plus, .minus, .star, .slash, .percent, .eq, .bang, .less, .greater, .question, .dot,
      .leftParen, .rightParen, .leftBracket, .rightBracket, .leftBrace, .rightBrace,
      .comma, .colon, .semicolon]
  | .formula =>
    [.dotDotDot, .eqEq, .arrow, .bangEq, .lessEq, .greaterEq, .ampAmp, .pipePipe,
      .questionQuestion,
      .plus, .minus, .star, .slash, .percent, .eq, .bang, .less, .greater, .question, .dot,
      .leftParen, .rightParen, .leftBracket, .rightBracket, .leftBrace, .rightBrace,
      .comma, .colon, .semicolon]

/-- The longest symbol at the front of the input. -/
def atFront? (l : Language) (cs : List Char) : Option Symbol :=
  (all l).find? fun s => s.text.toList.isPrefixOf cs

end Symbol

/-- What a token is.  A string with expressions in it comes in pieces: the text
before the first expression, the texts between two of them and the text after
the last, each expression between its own opening and closing mark. -/
inductive Kind
  | number (n : Literal)
  | string (s : String)
  | stringStart (s : String)
  | stringPart (s : String)
  | stringEnd (s : String)
  | holeStart
  | holeEnd
  | name (s : String)
  | word (w : Keyword)
  | symbol (s : Symbol)
  | endOfInput
  deriving DecidableEq

namespace Kind

/-- The token as messages show it. -/
def text : Kind → String
  | .number n => n.text
  | .string s => "\"" ++ s ++ "\""
  | .stringStart s => "\"" ++ s ++ "$\x7b"
  | .stringPart s => "\x7d" ++ s ++ "$\x7b"
  | .stringEnd s => "\x7d" ++ s ++ "\""
  | .holeStart => "$\x7b"
  | .holeEnd => "\x7d"
  | .name s => s
  | .word w => w.text
  | .symbol s => s.text
  | .endOfInput => "end of input"

def isKeyword : Kind → Bool
  | .word _ => true
  | _ => false

def isName : Kind → Bool
  | .name _ => true
  | _ => false

end Kind
end Token

/-- A token and the text it covers. -/
structure Token where
  kind : Token.Kind
  span : Span
  deriving DecidableEq

end Workbook
