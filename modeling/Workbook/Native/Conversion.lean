/-
From native values to values of formulas and to JSON, and back from JSON.  What
contains itself cannot be converted; what is merely shared can.
-/
import Workbook.Native.Text

namespace Workbook
namespace Native

/-! ## To values of formulas -/

/-- A number as a value: an integer if it is one.  Numbers that are not finite
are null. -/
def ofNumber (x : Float) : Value :=
  match Number.exact x with
  | .finite negative m e =>
    if Number.Exact.isWhole m e then
      let n : Int := Number.Exact.whole m e
      .ofInt (if negative then -n else n)
    else .float x
  | _ => .null

/-- The items or entries of a container, of which all or none are converted. -/
def collect {α β : Type} (f : α → Except Fault β) : List α → Except Fault (List β)
  | [] => .ok []
  | a :: rest => do return (← f a) :: (← collect f rest)

/-- The value of formulas inside the containers `outer`.  A container that is
converted remembers where it came from; of its keys that agree up to case the
first counts.  `fuel` bounds how deep containers are nested. -/
def toValueIn (s : Store) : Nat → List Native → Native → Except Fault Value
  | _, _, undefined | _, _, null => .ok .null
  | _, _, boolean b => .ok (.boolean b)
  | _, _, number x => .ok (ofNumber x)
  | _, _, big n => .ok (.ofInt n)
  | _, _, string t => .ok (.string t)
  | _, _, date n => .ok (.date n)
  | _, _, bytes b => .ok (.bytes b)
  | _, _, function f => .ok (.function (.native f))
  | _, _, marker m => .ok (.signal m)
  | 0, _, array _ | 0, _, object _ => .error .cyclic
  | fuel + 1, outer, array place => do
    if outer.any (strictEquals (array place)) then .error .cyclic
    let items ← collect (toValueIn s fuel (array place :: outer)) (s.items place).toList
    let version := ((s.arrays[place]?).map Container.version).getD 0
    return .list items (some ⟨place, version⟩)
  | fuel + 1, outer, object place => do
    if outer.any (strictEquals (object place)) then .error .cyclic
    let entries ← collect
      (fun (k, v) => (k, ·) <$> toValueIn s fuel (object place :: outer) v) (s.fields place)
    let version := ((s.objects[place]?).map Container.version).getD 0
    return .mapping (Entries.ofList entries) (some ⟨place, version⟩)

/-- The value of formulas that a native value is converted to. -/
def toValue (s : Store) (v : Native) : Except Fault Value :=
  v.toValueIn s (s.containers + 1) []

/-! ## To JSON -/

/-- A number in JSON: an integer where that is exact, and null where it is not
finite. -/
def jsonNumber (x : Float) : Json :=
  match Number.exact x with
  | .finite negative m e =>
    if Number.Exact.isWhole m e ∧ Number.Exact.whole m e < Number.exactBound then
      let n : Int := Number.Exact.whole m e
      .integer (if negative then -n else n)
    else .float x
  | _ => .null

/-- The fault of a container that is inside itself. -/
def circularJson : Fault :=
  .runtime "Converting circular structure to JSON"

/-- The JSON of a value inside the containers `outer`.  What JSON cannot express is
none: it becomes null in an array and is left out of an object. -/
def toJsonIn (s : Store) : Nat → List Native → Native → Except Fault (Option Json)
  | _, _, undefined | _, _, function _ | _, _, marker _ => .ok none
  | _, _, null => .ok (some .null)
  | _, _, boolean b => .ok (some (.bool b))
  | _, _, number x => .ok (some (jsonNumber x))
  | _, _, big _ => .error (.runtime "Do not know how to serialize a BigInt")
  | _, _, string t => .ok (some (.string t))
  | _, _, date n => .ok (some (.string (Calendar.text n)))
  | _, _, bytes b => .ok (some (.array (b.data.map fun x => .integer x.toNat)))
  | 0, _, array _ | 0, _, object _ => .error circularJson
  | fuel + 1, outer, array place => do
    if outer.any (strictEquals (array place)) then .error circularJson
    let items ← collect (toJsonIn s fuel (array place :: outer)) (s.items place).toList
    return some (.array (items.map (·.getD .null)))
  | fuel + 1, outer, object place => do
    if outer.any (strictEquals (object place)) then .error circularJson
    let entries ← collect
      (fun (k, v) => (k, ·) <$> toJsonIn s fuel (object place :: outer) v) (s.fields place)
    return some (.object (entries.filterMap fun (k, v) => v.map (k, ·)))

/-- The JSON of a value; none if JSON cannot express it. -/
def toJson (s : Store) (v : Native) : Except Fault (Option Json) :=
  v.toJsonIn s (s.containers + 1) []

end Native

/-! ## From JSON -/

namespace Value

mutual

/-- The value that JSON describes.  Integers of 64 bits stay integers. -/
def ofJson : Json → Value
  | .null => .null
  | .bool b => .boolean b
  | .integer n =>
    if Number.fitsWord n then .integer (Int64.ofInt n) else .float (Number.ofInt n)
  | .float x => .float x
  | .string s => .string s
  | .array items => .ofItems (itemsOfJson items)
  | .object entries => .ofEntries (Entries.ofList (entriesOfJson entries))

def itemsOfJson : List Json → List Value
  | [] => []
  | j :: rest => ofJson j :: itemsOfJson rest

def entriesOfJson : List (String × Json) → List (String × Value)
  | [] => []
  | (k, j) :: rest => (k, ofJson j) :: entriesOfJson rest

end

end Value

namespace Run

mutual

/-- New native values that hold what JSON describes. -/
def nativeOfJson : Json → Run Native
  | .null => return .null
  | .bool b => return .boolean b
  | .integer n => return .number (Number.ofInt n)
  | .float x => return .number x
  | .string s => return .string s
  | .array items => do newArray (← nativeItemsOfJson items).toArray
  | .object entries => do newObject (← nativeFieldsOfJson entries)

def nativeItemsOfJson : List Json → Run (List Native)
  | [] => return []
  | j :: rest => do
    let v ← nativeOfJson j
    return v :: (← nativeItemsOfJson rest)

def nativeFieldsOfJson : List (String × Json) → Run Fields
  | [] => return []
  | (k, j) :: rest => do
    let v ← nativeOfJson j
    return (k, v) :: (← nativeFieldsOfJson rest)

end

/-- The value of formulas that a native value is converted to. -/
def toValue (v : Native) : Run Value := do
  ofFaulty (v.toValue (← get))

end Run
end Workbook
