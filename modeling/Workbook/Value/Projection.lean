/-
Values of formulas as text, as JSON and as native values, and their equality.
All of these force the lazy entries that they come to, in order.
-/
import Workbook.Request
import Workbook.Text.Quoted

namespace Workbook
namespace Engine

variable (engine : Engine)

/-! ## Lazy entries -/

/-- What a computation that was put off yields.  A session that is gone yields
nothing. -/
def perform : Work → Run Value
  | .value v => return v
  | .expression session key => do
    if ((← get).sessions[session]?).any (·.alive) then
      match ← engine.ask (.evaluate session key) with
      | some r => return r.outcome.toValue
      | none => return .null
    return .null
  | .folder session key => do
    if ((← get).sessions[session]?).any (·.alive) then
      engine.ask (.folderValue session key)
    else return .null

/-- The value of a lazy entry.  The first value that is computed for it stays, even
if reading the entry made it be read again. -/
def force (thunk : Nat) : Run Value := do
  match (← get).thunks[thunk]? with
  | some (.done v) => return v
  | some (.pending w) =>
    let v ← engine.perform w
    match (← get).thunks[thunk]? with
    | some (.done first) => return first
    | _ =>
      modify fun s => { s with thunks := s.thunks.set! thunk (.done v) }
      return v
  | none => return .null

/-! ## Text -/

/-- The entries of a mapping as text. -/
def entriesText : Entries → Run (List String)
  | [] => return []
  | (k, slot) :: rest => do
    let v ← engine.read slot
    let t ← engine.ask (.text v true)
    return (" " ++ k ++ ": " ++ t) :: (← entriesText rest)

/-- A value as text; strings are quoted inside lists and mappings. -/
def text (v : Value) (nested : Bool) : Run String :=
  match v with
  | .null => return "null"
  | .boolean b => return if b then "true" else "false"
  | .integer n => return Json.integerText n.toInt
  | .float x => return Number.text x
  | .big n => return Json.integerText n
  | .string s => return if nested then Text.quoted s else s
  | .date n => return Calendar.text n
  | .bytes b => return "<" ++ toString b.data.length ++ " bytes>"
  | .list items _ => do
    let ts ← items.mapM fun v => engine.ask (.text v true)
    return "[" ++ ", ".intercalate ts ++ "]"
  | .mapping entries _ => do
    let ts ← engine.entriesText entries
    return "\x7b" ++ ",".intercalate ts ++ (if ts.isEmpty then "\x7d" else " \x7d")
  | .function f => return "<function " ++ f.name ++ ">"
  | .error kind message _ => return "<" ++ kind ++ ": " ++ message ++ ">"
  | .signal marker => return "<signal " ++ marker ++ ">"

/-! ## JSON -/

/-- The entries of a mapping in JSON. -/
def entriesJson : Entries → Run (List (String × Json))
  | [] => return []
  | (k, slot) :: rest => do
    let v ← engine.read slot
    let j ← engine.ask (.json v)
    return (k, j) :: (← entriesJson rest)

/-- An object that stands for a value JSON has no form for. -/
def tagged (type : String) (fields : List (String × Json)) : Json :=
  .object (("$type", .string type) :: fields)

/-- A double in JSON; one that is not finite is null. -/
def floatJson (x : Float) : Json :=
  if x.isFinite then .float x else .null

/-- A value in JSON.  Big integers are strings there. -/
def json (v : Value) : Run Json :=
  match v with
  | .null => return .null
  | .boolean b => return .bool b
  | .integer n => return .integer n.toInt
  | .float x => return floatJson x
  | .big n => return .string (Json.integerText n)
  | .string s => return .string s
  | .date n => return .string (Calendar.offsetText n)
  | .bytes b => return .array (b.data.map fun x => .integer x.toNat)
  | .list items _ => return .array (← items.mapM fun v => engine.ask (.json v))
  | .mapping entries _ => return .object (← engine.entriesJson entries)
  | .function f => return tagged "function" [("name", .string f.name)]
  | .error kind message payload => do
    let data ← match payload with
      | some v => engine.ask (.json v)
      | none => pure .null
    return tagged "error" [("kind", .string kind), ("message", .string message), ("data", data)]
  | .signal marker => return tagged "signal" [("kind", .string marker)]

/-! ## Native values -/

/-- The array that a list was converted from, if it has not been modified since. -/
def currentArray (s : Store) (origin : Option Origin) : Option Native := do
  let o ← origin
  let c ← s.arrays[o.container]?
  if c.version = o.version then some (.array o.container) else none

/-- The object that a mapping was converted from, if it has not been modified
since. -/
def currentObject (s : Store) (origin : Option Origin) : Option Native := do
  let o ← origin
  let c ← s.objects[o.container]?
  if c.version = o.version then some (.object o.container) else none

/-- The entries of a mapping as fields. -/
def entriesNative : Entries → Run Fields
  | [] => return []
  | (k, slot) :: rest => do
    let v ← engine.read slot
    let n ← engine.ask (.native v)
    return (k, n) :: (← entriesNative rest)

/-- A value in its native form.  A container that came from a native one is that
one again, as long as it is unmodified. -/
def native (v : Value) : Run Native :=
  match v with
  | .null => return .null
  | .boolean b => return .boolean b
  | .integer n =>
    return if n.toInt.natAbs ≤ Number.exactBound then .number (Number.ofInt n.toInt) else .big n.toInt
  | .float x => return .number x
  | .big n => return .big n
  | .string s => return .string s
  | .date n => return .date n
  | .bytes b => return .bytes b
  | .list items origin => do
    match currentArray (← get) origin with
    | some a => return a
    | none => Run.newArray (← items.mapM fun v => engine.ask (.native v)).toArray
  | .mapping entries origin => do
    match currentObject (← get) origin with
    | some o => return o
    | none => Run.newObject (← engine.entriesNative entries)
  | .function (.native f) => return .function f
  | .function (.typed f) => Run.newNative (.bridge f)
  | .error kind message payload => do
    let data ← match payload with
      | some v => engine.ask (.native v)
      | none => pure .null
    Run.newObject [("type", .string kind), ("message", .string message), ("data", data)]
  | .signal marker => return .marker marker

/-! ## Equality -/

/-- Whether two lists have equal items. -/
def equalItems : List Value → List Value → Run Bool
  | a :: as, b :: bs => do
    if ← engine.ask (.equal a b) then equalItems as bs else return false
  | _, _ => return true

/-- Whether each entry has its equal in a mapping. -/
def equalEntries (other : Entries) : Entries → Run Bool
  | [] => return true
  | (k, slot) :: rest => do
    let v ← engine.read slot
    match ← engine.readKey? other k with
    | none => return false
    | some w => if ← engine.ask (.equal v w) then equalEntries other rest else return false

/-- Equality by structure.  Numbers are equal by value, whatever their tags. -/
def equal (a b : Value) : Run Bool :=
  match a, b with
  | .null, .null => return true
  | .boolean a, .boolean b => return a == b
  | .string a, .string b => return a == b
  | .date a, .date b => return a == b
  | .bytes a, .bytes b => return a.data == b.data
  | .list as _, .list bs _ =>
    if as.length = bs.length then engine.equalItems as bs else return false
  | .mapping as _, .mapping bs _ =>
    if as.length = bs.length then engine.equalEntries bs as else return false
  | .function f, .function g => return f.same g
  | .error kind message _, .error kind' message' _ => return kind == kind' && message == message'
  | .signal a, .signal b => return a == b
  | a, b =>
    match a.int?, b.int? with
    | some m, some n => return m == n
    | _, _ =>
      match a.float?, b.float? with
      | some x, some y => return x == y
      | _, _ => return false

end Engine
end Workbook
