/-
Properties of native values: which there are, how they are read, written and
deleted, and what loops and spreads walk over.
-/
import Workbook.Native.Text

namespace Workbook
namespace Native

/-! ## Keys -/

/-- The position that a key designates: digits without a leading zero, for a number
of 64 bits. -/
def position? (key : String) : Option Nat :=
  let ds := key.toList
  let n := Number.ofDigits ds
  if ds.isEmpty || !ds.all Char.isDigit || (ds.head? == some '0' && ds.length ≠ 1) then none
  else if n < UInt64.size then some n
  else none

/-- A character as a string. -/
def ofChar (c : Char) : Native :=
  .string c.toString

/-- The bytes of a byte string as numbers. -/
def ofByte (b : UInt8) : Native :=
  .number (Number.ofInt b.toNat)

/-- A count as a number. -/
def ofNat (n : Nat) : Native :=
  .number (Number.ofInt n)

/-! ## Reading -/

/-- Numbered items and their count, as properties. -/
def itemProperty (key : String) (length : Nat) (item? : Nat → Option Native) : Native :=
  if key = "length" then ofNat length
  else ((position? key).bind item?).getD .undefined

/-- The value of a property. -/
def property (s : Store) (v : Native) (key : String) : Except Cause Native :=
  match v with
  | .null => .error (.nullAccess key)
  | .undefined => .error (.typeMismatch ("cannot read '" ++ key ++ "' of undefined"))
  | .array place => .ok (itemProperty key (s.items place).size fun i => (s.items place)[i]?)
  | .string t => .ok (itemProperty key t.length fun i => t.toList[i]?.map ofChar)
  | .bytes b => .ok (itemProperty key b.data.length fun i => b.data[i]?.map ofByte)
  | .object place => .ok (((s.fields place).lookup key).getD .undefined)
  | .function f => .ok (if key = "name" then .string f.code.name else .undefined)
  | _ => .ok .undefined

/-- Values of a list under their positions. -/
def numbered (vs : List Native) : Fields :=
  vs.mapIdx fun i v => (toString i, v)

/-- The properties that are listed: fields, items and characters. -/
def properties (s : Store) : Native → Fields
  | .object place => s.fields place
  | .array place => numbered (s.items place).toList
  | .string t => numbered (t.toList.map ofChar)
  | _ => []

/-- What a loop or a spread walks over. -/
def walk (s : Store) : Native → Except Cause (List Native)
  | .array place => .ok (s.items place).toList
  | .string t => .ok (t.toList.map ofChar)
  | .bytes b => .ok (b.data.map ofByte)
  | v => .error (.typeMismatch (v.typeOf ++ " is not iterable"))

/-- What a thrown value reports: the text of its field `message`, or its own text. -/
def thrownText (s : Store) (v : Native) : String :=
  match v with
  | .object place =>
    match (s.fields place).lookup "message" with
    | some (.string m) => m
    | _ => v.text s
  | _ => v.text s

/-! ## Writing -/

/-- The longest array that assignment makes. -/
def maxArrayLength : Nat := 0x1000000

/-- An array of a length; new items are undefined. -/
def resize (n : Nat) (items : Array Native) : Array Native :=
  if n ≤ items.size then items.take n
  else items ++ Array.replicate (n - items.size) .undefined

/-- An array with an item set; it grows as far as needed. -/
def setItem (i : Nat) (v : Native) (items : Array Native) : Array Native :=
  (if i < items.size then items else resize (i + 1) items).setIfInBounds i v

/-- The length that a number stands for; none if arrays do not get that long. -/
def arrayLength? (x : Float) : Option Nat :=
  match Number.truncated? x with
  | some n =>
    if Number.isIntegral x ∧ 0 ≤ n ∧ n ≤ maxArrayLength then some n.toNat else none
  | none => none

end Native

namespace Run

/-- Fails because an array cannot have the length. -/
def invalidLength {α : Type} : Run α :=
  fail (.runtime "invalid array length")

/-- The value of a property. -/
def property (v : Native) (key : String) : Run Native := do
  ofExcept (v.property (← get) key)

/-- Sets an item of an array, or its length. -/
def setArrayProperty (place : Nat) (key : String) (value : Native) : Run Unit := do
  touchArray place
  if key = "length" then
    match Native.arrayLength? (← numberOf value) with
    | some n => changeItems place (Native.resize n)
    | none => invalidLength
  else
    match Native.position? key with
    | some i =>
      if i < Native.maxArrayLength then changeItems place (Native.setItem i value)
      else invalidLength
    | none => mismatch ("cannot set property '" ++ key ++ "' on an array")

/-- Sets a property. -/
def setProperty (v : Native) (key : String) (value : Native) : Run Unit :=
  match v with
  | .object place => modifyFields place (Keyed.put key value)
  | .array place => setArrayProperty place key value
  | .null => mismatch ("cannot set '" ++ key ++ "' of null")
  | .undefined => mismatch ("cannot set '" ++ key ++ "' of undefined")
  | v => mismatch ("cannot set property '" ++ key ++ "' on a " ++ v.typeOf)

/-- Deletes a property.  An array keeps its length. -/
def deleteProperty (v : Native) (key : String) : Run Unit := do
  match v with
  | .object place => modifyFields place (Keyed.remove key)
  | .array place =>
    match Native.position? key with
    | some i => modifyItems place (·.setIfInBounds i .undefined)
    | none => return
  | .null | .undefined =>
    mismatch ("cannot delete '" ++ key ++ "' of " ++ (← textOf v))
  | _ => return

end Run
end Workbook
