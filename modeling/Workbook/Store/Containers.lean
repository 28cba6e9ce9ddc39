/-
Arrays and objects of the store: making, reading, modifying and freezing them.
-/
import Workbook.Store

namespace Workbook

/-! ## Reading -/

namespace Store

/-- The items of an array. -/
def items (s : Store) (place : Nat) : Array Native :=
  match s.arrays[place]? with
  | some c => c.content
  | none => #[]

/-- The fields of an object. -/
def fields (s : Store) (place : Nat) : Fields :=
  match s.objects[place]? with
  | some c => c.content
  | none => []

/-- How many arrays and objects there are.  No chain of them, each in the one
before and all different, is longer. -/
def containers (s : Store) : Nat :=
  s.arrays.size + s.objects.size

/-! ## Freezing -/

/-- Freezes an array or object that is not frozen yet; its contents, if it was
one. -/
def freezeOne (s : Store) : Native → Store × List Native
  | .array place =>
    match s.arrays[place]? with
    | some c =>
      if c.frozen then (s, [])
      else
        ({ s with arrays := s.arrays.modify place fun c => { c with frozen := true } },
          c.content.toList)
    | none => (s, [])
  | .object place =>
    match s.objects[place]? with
    | some c =>
      if c.frozen then (s, [])
      else
        ({ s with objects := s.objects.modify place fun c => { c with frozen := true } },
          c.content.map (·.2))
    | none => (s, [])
  | _ => (s, [])

/-- Freezes values and everything in them; `fuel` bounds how deep containers that
are not frozen yet are nested. -/
def freezeAll : Nat → Store → List Native → Store
  | 0, s, _ => s
  | fuel + 1, s, vs =>
    vs.foldl (fun s v =>
      let (s, inner) := s.freezeOne v
      freezeAll fuel s inner) s

theorem freezeAll_nil (fuel : Nat) (s : Store) : freezeAll fuel s [] = s := by
  cases fuel <;> rfl

/-- Freezes a value and everything in it. -/
def freeze (s : Store) (v : Native) : Store :=
  freezeAll (s.containers + 1) s [v]

/-- What is no container or frozen already has nothing to freeze. -/
theorem freeze_eq_self {s : Store} {v : Native} (h : s.freezeOne v = (s, [])) : s.freeze v = s := by
  show freezeAll s.containers (s.freezeOne v).1 (s.freezeOne v).2 = s
  rw [h, freezeAll_nil]

end Store

namespace Run

/-! ## Making -/

/-- A new array. -/
def newArray (items : Array Native) : Run Native :=
  modifyGet fun s =>
    (.array s.arrays.size, { s with arrays := s.arrays.push (.ofContent items) })

/-- A new object with exactly these fields. -/
def newObject (fields : Fields) : Run Native :=
  modifyGet fun s =>
    (.object s.objects.size, { s with objects := s.objects.push (.ofContent fields) })

/-- A new byte string. -/
def newBytes (data : List UInt8) : Run Bytes := do
  return ⟨← freshId, data⟩

/-- A new function of formulas. -/
def newTyped (code : TypedCode) : Run Value := do
  return .function (.typed (.mk (← freshId) code))

/-- A new native function. -/
def newNative (code : NativeCode) : Run Native := do
  return .function (.mk (← freshId) code)

/-! ## Reading -/

def items (place : Nat) : Run (Array Native) := do
  return (← get).items place

def fields (place : Nat) : Run Fields := do
  return (← get).fields place

/-! ## Modifying -/

/-- The fault of a write to what is frozen. -/
def frozenFault : Fault :=
  .runtime "cannot modify a read-only value"

/-- Fails if the array is frozen, and counts a modification otherwise. -/
def touchArray (place : Nat) : Run Unit := do
  if ((← get).arrays[place]?).any (·.frozen) then fault frozenFault
  modify fun s =>
    { s with arrays := s.arrays.modify place fun c => { c with version := c.version + 1 } }

/-- Fails if the object is frozen, and counts a modification otherwise. -/
def touchObject (place : Nat) : Run Unit := do
  if ((← get).objects[place]?).any (·.frozen) then fault frozenFault
  modify fun s =>
    { s with objects := s.objects.modify place fun c => { c with version := c.version + 1 } }

/-- Changes the items of an array whose modification has been counted. -/
def changeItems (place : Nat) (f : Array Native → Array Native) : Run Unit :=
  modify fun s =>
    { s with arrays := s.arrays.modify place fun c => { c with content := f c.content } }

/-- Changes the fields of an object whose modification has been counted. -/
def changeFields (place : Nat) (f : Fields → Fields) : Run Unit :=
  modify fun s =>
    { s with objects := s.objects.modify place fun c => { c with content := f c.content } }

/-- Modifies an array unless it is frozen. -/
def modifyItems (place : Nat) (f : Array Native → Array Native) : Run Unit := do
  touchArray place
  changeItems place f

/-- Modifies an object unless it is frozen. -/
def modifyFields (place : Nat) (f : Fields → Fields) : Run Unit := do
  touchObject place
  changeFields place f

def freeze (v : Native) : Run Unit :=
  modify (·.freeze v)

end Run
end Workbook
