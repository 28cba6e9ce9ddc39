/-
Compiled scripts by their source texts.  The oldest one makes room for a new one;
being used does not make a script younger.
-/
import Workbook.Script

namespace Workbook
namespace Script

/-- Scripts in the order they came, at most `capacity` of them. -/
structure Cache where
  entries : List (String × Program)
  capacity : Nat

namespace Cache

def empty (capacity : Nat) : Cache :=
  ⟨[], capacity⟩

def find? (c : Cache) (source : String) : Option Program :=
  c.entries.lookup source

/-- Adds a script unless there is one for the text. -/
def insert (c : Cache) (source : String) (p : Program) : Cache :=
  if c.capacity = 0 ∨ (c.find? source).isSome then c
  else { c with entries := c.entries.drop (c.entries.length + 1 - c.capacity) ++ [(source, p)] }

def size (c : Cache) : Nat :=
  c.entries.length

end Cache
end Script
end Workbook
