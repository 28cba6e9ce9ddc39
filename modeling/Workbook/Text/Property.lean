/-
Character classes.  Each is a Unicode property; the first 128 code points are
decided without the tables.
-/
import Workbook.Text.Property.Table

namespace Workbook
namespace Text

/-- Letters, in any script. -/
def isAlphabetic (c : Char) : Bool :=
  if c.toNat < 128 then c.isAlpha else Property.alphabetic.contains c.toNat

/-- Digits and other numbers, in any script. -/
def isNumeric (c : Char) : Bool :=
  if c.toNat < 128 then c.isDigit else Property.numeric.contains c.toNat

/-- Letters and numbers, in any script. -/
def isAlphanumeric (c : Char) : Bool :=
  isAlphabetic c || isNumeric c

/-- The characters of the property White_Space. -/
def isBlank (c : Char) : Bool :=
  let n := c.toNat
  (9 ≤ n && n ≤ 13) || n == 0x20 || n == 0x85 || n == 0xa0 || n == 0x1680 ||
    (0x2000 ≤ n && n ≤ 0x200a) || n == 0x2028 || n == 0x2029 || n == 0x202f ||
    n == 0x205f || n == 0x3000

/-- Marks that join the character before them. -/
def isExtending (c : Char) : Bool :=
  if c.toNat < 128 then false else Property.extending.contains c.toNat

/-- Characters with a glyph of their own, and the space. -/
def isPrintable (c : Char) : Bool :=
  if c.toNat < 128 then 0x20 ≤ c.toNat && c.toNat ≠ 0x7f
  else !Property.unprintable.contains c.toNat

/-- Letters that have, or are, an upper or lower case form. -/
def isCased (c : Char) : Bool :=
  if c.toNat < 128 then c.isAlpha else Property.cased.contains c.toNat

/-- Characters a case rule looks past. -/
def isCaseIgnorable (c : Char) : Bool :=
  Property.caseIgnorable.contains c.toNat

/-- Every blank that core knows is blank here. -/
theorem isBlank_of_isWhitespace {c : Char} (h : c.isWhitespace = true) : isBlank c = true := by
  simp only [Char.isWhitespace, Bool.or_eq_true, decide_eq_true_eq] at h
  rcases h with ((h | h) | h) | h <;> subst h <;> decide

end Text
end Workbook
