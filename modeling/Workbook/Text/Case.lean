/-
Upper and lower case of whole texts.  Most characters map one by one; a capital
sigma looks at its neighbours, because it has a second small form at the end of
a word.
-/
import Workbook.Text.Property
import Workbook.Text.Case.Table

namespace Workbook
namespace Text
namespace Case

/-- The image of one character: its expansion if it has one, its shifted form
if a run moves it, and otherwise itself. -/
def mapChar (expansions : Array (Nat × List Nat)) (runs : Array Run) (c : Char) : List Char :=
  match expansions.find? (·.1 == c.toNat) with
  | some (_, image) => image.map Char.ofNat
  | none => [((Run.image? runs c.toNat).map Char.ofNat).getD c]

def lowerChar (c : Char) : List Char :=
  if c.toNat < 128 then [c.toLower] else mapChar lowerExpansions lowerRuns c

def upperChar (c : Char) : List Char :=
  if c.toNat < 128 then [c.toUpper] else mapChar upperExpansions upperRuns c

def capitalSigma : Char := 'Σ'

def smallSigma : Char := 'σ'

def finalSigma : Char := 'ς'

/-- Whether the next character that a case rule does not look past is a cased
letter. -/
def meetsCased (cs : List Char) : Bool :=
  match cs.dropWhile isCaseIgnorable with
  | c :: _ => isCased c
  | [] => false

/-- The small form of a capital sigma: final when a letter stands before it and
none after it. -/
def lowerSigma (before after : List Char) : Char :=
  if meetsCased before && !meetsCased after then finalSigma else smallSigma

/-- The lower case of the second list, which follows the first one; the first is
given nearest character first. -/
def lowerList : List Char → List Char → List Char
  | _, [] => []
  | before, c :: after =>
    if c == capitalSigma then lowerSigma before after :: lowerList (c :: before) after
    else lowerChar c ++ lowerList (c :: before) after

end Case

/-- The text in lower case. -/
def lower (s : String) : String :=
  String.ofList (Case.lowerList [] s.toList)

/-- The text in upper case. -/
def upper (s : String) : String :=
  String.ofList (s.toList.flatMap Case.upperChar)

end Text
end Workbook
