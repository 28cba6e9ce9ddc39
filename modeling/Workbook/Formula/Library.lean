/-
The mapping `lib`: measures of text and moving of points.  A point is a mapping
whose `x` and `y` are numbers of 64 bits or doubles.
-/
import Workbook.Formula.Math

namespace Workbook
namespace Formula
namespace LibraryFunction

/-- An argument that must be a number, as a double.  Big integers do not count. -/
def double (what : String) : Option Value → Except Fault Float
  | some (.integer n) => .ok (Number.ofInt n.toInt)
  | some (.float x) => .ok x
  | some v => .error (.runtime (what ++ " must be a number, got " ++ v.typeName))
  | none => .error (.runtime ("missing argument: " ++ what))

end LibraryFunction

/-! ## Moving points -/

namespace Motion

/-- A coordinate moved by an offset.  A sum that 64 bits do not hold is a double. -/
def shifted (a b : Value) : Value :=
  match a, b with
  | .integer m, .integer n =>
    let sum := m.toInt + n.toInt
    if Number.fitsWord sum then .integer (Int64.ofInt sum)
    else .float (Number.ofInt m.toInt + Number.ofInt n.toInt)
  | a, b => .float (a.float?.getD 0 + b.float?.getD 0)

/-- The coordinates of a moved point. -/
def apply (m : Motion) (x y : Value) : Value × Value :=
  match m with
  | .shift dx dy => (shifted x dx, shifted y dy)
  | .turn sine cosine =>
    let u := x.float?.getD 0
    let v := y.float?.getD 0
    (.float (u * cosine - v * sine), .float (u * sine + v * cosine))

end Motion

/-- Whether a value can be a coordinate. -/
def isCoordinate : Option Value → Bool
  | some (.integer _) | some (.float _) => true
  | _ => false

end Formula

namespace Engine

open Formula

variable (engine : Engine)

/-- The entries of a mapping with the points in them moved; `point` holds the new
coordinates if the mapping is a point itself. -/
def moveEntries (m : Motion) (point : Option (Value × Value)) : Entries → Run (List (String × Value))
  | [] => return []
  | (k, slot) :: rest => do
    let v ← engine.read slot
    let form := Text.lower k
    let moved ← match point with
      | some (x, y) =>
        if form = "x" then pure x
        else if form = "y" then pure y
        else engine.ask (.move m v)
      | none => engine.ask (.move m v)
    return (k, moved) :: (← moveEntries m point rest)

/-- A value with all points in it moved. -/
def move (m : Motion) (v : Value) : Run Value :=
  match v with
  | .list items _ => return .ofItems (← items.mapM fun v => engine.ask (.move m v))
  | .mapping entries _ => do
    let x ← engine.readKey? entries "x"
    let y ← engine.readKey? entries "y"
    let point := match x, y with
      | some u, some v =>
        if isCoordinate x && isCoordinate y then some (Motion.apply m u v) else none
      | _, _ => none
    return .ofEntries (Entries.ofList (← engine.moveEntries m point entries))
  | v => return v

/-! ## Measuring text -/

/-- A number among the options of a measure. -/
def option (options : Option Value) (key : String) (standard : Float) : Run Float := do
  match options with
  | some (.mapping entries _) =>
    return ((← engine.readKey? entries key).bind Value.float?).getD standard
  | _ => return standard

/-- The size of a text in a font: every character is as wide as a share of the font
size, and every line as high as a multiple of it. -/
def textMetrics (arguments : List Value) : Run Value := do
  let text ← match (arguments[0]? : Option Value) with
    | none | some .null => pure ""
    | some v => engine.ask (.text v false)
  let size ← match (arguments[1]? : Option Value) with
    | none | some .null => pure 16.0
    | some v => Run.ofFaulty (LibraryFunction.double "fontSize" (some v))
  let widthFactor ← engine.option arguments[2]? "widthFactor" 0.6
  let lineHeight ← engine.option arguments[2]? "lineHeight" 1.2
  let lines := Source.splitLines text.toList
  let longest := (lines.map List.length).foldl max 0
  return .ofEntries
    [("width", .ready (.float (Number.ofInt longest * size * widthFactor))),
      ("height", .ready (.float (Number.ofInt lines.length * size * lineHeight))),
      ("ascent", .ready (.float (size * 0.8))),
      ("descent", .ready (.float (size * 0.2))),
      ("lines", .ready (.ofInt lines.length))]

/-! ## The functions -/

/-- The value of a function of the library. -/
def callLibrary (f : LibraryFunction) (arguments : List Value) : Run Value := do
  let shape := arguments[0]?.getD .null
  match f with
  | .textMetrics => engine.textMetrics arguments
  | .translate =>
    let dx := arguments[1]?.getD (.integer 0)
    let dy := arguments[2]?.getD (.integer 0)
    let _ ← Run.ofFaulty (LibraryFunction.double "dx" (some dx))
    let _ ← Run.ofFaulty (LibraryFunction.double "dy" (some dy))
    engine.ask (.move (.shift dx dy) shape)
  | .rotate =>
    let angle ← Run.ofFaulty (LibraryFunction.double "angle" arguments[1]?)
    engine.ask (.move (.turn angle.sin angle.cos) shape)

end Engine

namespace Formula

/-- The mapping `lib`, made anew. -/
def newLibrary : Run Value := do
  return .ofEntries (← newFunctions (LibraryFunction.all.map fun f => (f.name, .library f)))

end Formula
end Workbook
