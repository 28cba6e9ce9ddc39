/-
Finding a text in another, and what follows from it: splitting and replacing.
Occurrences are taken from left to right and do not overlap.
-/

namespace Workbook
namespace Text

/-- Where the first occurrence begins, counted in characters. -/
def find? (needle : List Char) : List Char → Option Nat
  | [] => if needle.isEmpty then some 0 else none
  | c :: cs =>
    if needle.isPrefixOf (c :: cs) then some 0 else (find? needle cs).map (· + 1)

/-- Whether there is an occurrence. -/
def contains (needle : List Char) (cs : List Char) : Bool :=
  (find? needle cs).isSome

/-- The parts between the occurrences of a separator that is not empty; `skip`
characters still belong to the last occurrence, and `part` comes before the rest
in reverse. -/
def splitFrom (separator : List Char) : Nat → List Char → List Char → List (List Char)
  | _, part, [] => [part.reverse]
  | skip + 1, part, _ :: cs => splitFrom separator skip part cs
  | 0, part, c :: cs =>
    if separator.isPrefixOf (c :: cs) then
      part.reverse :: splitFrom separator (separator.length - 1) [] cs
    else splitFrom separator 0 (c :: part) cs

/-- The parts between the occurrences of a separator; between all characters if it
is empty. -/
def split (separator cs : List Char) : List (List Char) :=
  if separator.isEmpty then cs.map fun c => [c] else splitFrom separator 0 [] cs

/-- The text with its first occurrence replaced. -/
def replaceFirst (needle replacement cs : List Char) : List Char :=
  match find? needle cs with
  | some i => cs.take i ++ replacement ++ cs.drop (i + needle.length)
  | none => cs

/-- The text with all occurrences replaced.  The empty text occurs before every
character and at the end. -/
def replaceAll (needle replacement cs : List Char) : List Char :=
  if needle.isEmpty then replacement ++ cs.flatMap fun c => c :: replacement
  else replacement.intercalate (splitFrom needle 0 [] cs)

/-- Whether the text ends in another one. -/
def endsIn (ending cs : List Char) : Bool :=
  ending.isSuffixOf cs

end Text
end Workbook
