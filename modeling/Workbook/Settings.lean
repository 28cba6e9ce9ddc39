/-
The settings of a session, and their JSON form: an object with some of the
fields, or a list of the first ones.  Fields that are not known are passed over
without a closer look.
-/
import Workbook.Json.Parser

namespace Workbook

structure Settings where
  /-- The name under which the time is found. -/
  timeVariable : String
  /-- How many compiled scripts are kept. -/
  cacheCapacity : Nat
  /-- How many calls may be active at once, in either language. -/
  maxCallDepth : Nat
  deriving DecidableEq, Repr

namespace Settings

def standard : Settings :=
  ⟨"t", 256, 256⟩

/-! ## Fields -/

/-- The fields in the order of the list form. -/
inductive Field
  | timeVariable
  | cacheCapacity
  | maxCallDepth
  deriving DecidableEq, Repr

namespace Field

def name : Field → String
  | .timeVariable => "timeVariableName"
  | .cacheCapacity => "executorCacheCapacity"
  | .maxCallDepth => "maxCallDepth"

def all : List Field :=
  [.timeVariable, .cacheCapacity, .maxCallDepth]

def ofName? (s : String) : Option Field :=
  all.find? (·.name == s)

end Field

/-- A natural number below a bound. -/
def natBelow? (bound : Int) : Json → Option Nat
  | .integer n => if 0 ≤ n ∧ n < bound then some n.toNat else none
  | _ => none

/-- The settings with a field set; none if the value does not suit it. -/
def set? (s : Settings) (f : Field) (v : Json) : Option Settings :=
  match f with
  | .timeVariable => v.string?.map fun name => { s with timeVariable := name }
  | .cacheCapacity => (natBelow? UInt64.size v).map fun n => { s with cacheCapacity := n }
  | .maxCallDepth => (natBelow? UInt32.size v).map fun n => { s with maxCallDepth := n }

/-- The settings with several fields set. -/
def setAll? (s : Settings) (fields : List (Field × Json)) : Option Settings :=
  fields.foldlM (fun s (f, v) => s.set? f v) s

/-! ## Reading -/

/-- The settings of an object.  No known field may come twice. -/
def ofEntries? (entries : List (String × Json)) : Option Settings :=
  let known := entries.filterMap fun (k, v) => (Field.ofName? k).map (·, v)
  if (known.map (·.1)).Nodup then standard.setAll? known else none

/-- The settings of a list. -/
def ofItems? (items : List Json) : Option Settings :=
  if items.length ≤ Field.all.length then standard.setAll? (Field.all.zip items) else none

open Json (Reader Policy)
open Json.Parser

/-- The value of a field: checked if the field is known. -/
def fieldValue (fuel : Nat) (key : String) : Reader → Except Json.Fault (Json × Reader) :=
  if (Field.ofName? key).isSome then value ⟨true⟩ Json.maxDepth else value ⟨false⟩ fuel

/-- The settings that a JSON text gives. -/
def ofText? (text : String) : Option Settings :=
  let r := (Reader.start text).skipBlank
  let fuel := r.rest.length + 1
  match r.rest with
  | '\x7b' :: _ =>
    ((entries ⟨true⟩ (fieldValue fuel) fuel [] (r.drop 1)).bind finish).toOption.bind ofEntries?
  | '[' :: _ =>
    ((items (value ⟨true⟩ Json.maxDepth) fuel [] (r.drop 1)).bind finish).toOption.bind ofItems?
  | _ => none

end Settings
end Workbook
