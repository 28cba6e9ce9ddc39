/-
The entries of a mapping: keys in the order they were first added, compared
without regard to case.
-/
import Workbook.Text.Case
import Workbook.Value

namespace Workbook

/-- Keys as they were written, with their values. -/
abbrev Entries := List (String × Slot)

namespace Entries

/-- Whether two keys are the same key. -/
def sameKey (a b : String) : Bool :=
  Text.lower a == Text.lower b

/-- The slot under a key, in any spelling. -/
def find? (entries : Entries) (key : String) : Option Slot :=
  let form := Text.lower key
  (List.find? (fun e => Text.lower e.1 == form) entries).map (·.2)

def has (entries : Entries) (key : String) : Bool :=
  (entries.find? key).isSome

def keys (entries : Entries) : List String :=
  entries.map (·.1)

/-- Adds an entry at the end; none if its key is there already. -/
def insert? (entries : Entries) (key : String) (slot : Slot) : Option Entries :=
  if entries.has key then none else some (entries ++ [(key, slot)])

/-- Adds an entry at the end unless its key is there already. -/
def insert (entries : Entries) (key : String) (slot : Slot) : Entries :=
  (entries.insert? key slot).getD entries

/-- Gives a key a value and this spelling, at its place or else at the end. -/
def set (key : String) (slot : Slot) : Entries → Entries
  | [] => [(key, slot)]
  | e :: rest => if sameKey e.1 key then (key, slot) :: rest else e :: set key slot rest

/-- The entries of which the first of each key is kept. -/
def ofList (entries : List (String × Value)) : Entries :=
  entries.foldl (fun out e => insert out e.1 (.ready e.2)) []

end Entries

namespace Value

/-- A list made anew. -/
def ofItems (items : List Value) : Value :=
  list items none

/-- A mapping made anew. -/
def ofEntries (entries : Entries) : Value :=
  mapping entries none

end Value
end Workbook
