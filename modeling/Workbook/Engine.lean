/-
The engine that all evaluations use.  Each part is written against an engine; here
they are tied together.  An engine answers a request with the part for it, and that
part uses an engine that may nest requests less deeply by one.
-/
import Workbook.Session.Import
import Workbook.Value.Projection

namespace Workbook
namespace Engine

/-- What functions of the surrounding program answer in formulas. -/
def replyTyped (r : Reply) (arguments : List Value) : Run Value :=
  match r with
  | .fails f => Run.fault f
  | .first => return arguments[0]?.getD .null
  | .all => return .ofItems arguments

/-- What functions of the surrounding program answer in scripts. -/
def replyNative (r : Reply) (arguments : List Native) : Run Native :=
  match r with
  | .fails f => Run.fault f
  | .first => return arguments[0]?.getD .undefined
  | .all => Run.newArray arguments.toArray

variable (engine : Engine)

/-- The value of a function of formulas. -/
def callTypedCode (code : TypedCode) (arguments : List Value) : Run Value :=
  match code with
  | .lambda context locals parameters body =>
    engine.callLambda context locals parameters body arguments
  | .math f => Run.ofFaulty (f.apply arguments)
  | .library f => engine.callLibrary f arguments
  | .listMethod items m => engine.callListMethod items m arguments
  | .stringMethod s m => callStringMethod s m arguments
  | .mappingMethod entries m => engine.callMappingMethod entries m arguments
  | .importer session folder => engine.importValue session folder arguments
  | .host _ r => replyTyped r arguments

/-- The value of a native function. -/
def callNativeCode (code : NativeCode) (arguments : List Native) : Run Native :=
  match code with
  | .script run block f name => engine.ask (.invoke run block f name arguments)
  | .builtin b => Run.callBuiltin b arguments
  | .host _ r => replyNative r arguments
  | .bridge f => engine.callBridged f arguments

/-- The answer to a request; `fuel` bounds how often a loop goes round. -/
def answer (fuel : Nat) : {α : Type} → Request α → Run α
  | _, .force thunk => engine.force thunk
  | _, .text v nested => engine.text v nested
  | _, .json v => engine.json v
  | _, .native v => engine.native v
  | _, .equal a b => engine.equal a b
  | _, .move m v => engine.move m v
  | _, .formula evaluation locals e => engine.formula evaluation locals e
  | _, .callTyped f arguments => Run.behindCall (engine.callTypedCode f.code arguments)
  | _, .callNative f arguments => Run.behindCall (engine.callNativeCode f.code arguments)
  | _, .invoke run block f name arguments => engine.invoke run block f name arguments
  | _, .statement run block st => engine.statement fuel run block st
  | _, .expression run block e => engine.expression run block e
  | _, .evaluate session key => engine.evaluate session key
  | _, .folderValue session key => engine.folderValue session key

/-- The engine that nests requests so deep, and no deeper. -/
def ofFuel : Nat → Engine
  | 0 => ⟨fun _ => Run.exhausted⟩
  | fuel + 1 => ⟨fun r => answer (ofFuel fuel) fuel r⟩

/-- More than any evaluation needs that ends. -/
def standardFuel : Nat := 1 <<< 62

/-- The engine for all purposes. -/
def standard : Engine :=
  ofFuel standardFuel

end Engine
end Workbook
