/-
Engines that answer alike answer alike one level deeper.

`Responds.next` is what the modules before it add up to: if two engines answer all
requests alike, so do the engines made from them, provided that the four parts that
lead into sessions correspond.  By recursion on how deep requests nest, a property of
runs then holds of everything an engine does, with only those four left to show.
-/
import Workbook.Proofs.Simulation.Script

open List (Forall₂)

namespace Workbook
namespace Simulation

variable {S : Simulation} {e₁ e₂ : Engine} {w : S.World}

/-! ## Functions of the surroundings -/

theorem rel_replyTyped (r : Reply) {vs ws : List Value} (h : S.values w vs ws) :
    S.Rel w (Engine.replyTyped r vs) (Engine.replyTyped r ws) S.value := by
  cases r with
  | fails f => exact rel_fault f
  | first => exact S.pure (optional_getD (getElem?_alike h 0) .null)
  | all => exact S.pure (Value.ofItems_alike h)

theorem rel_replyNative (r : Reply) {vs ws : List Native} (h : S.natives w vs ws) :
    S.Rel w (Engine.replyNative r vs) (Engine.replyNative r ws) S.native := by
  cases r with
  | fails f => exact rel_fault f
  | first => exact S.pure (optional_getD (getElem?_alike h 0) .undefined)
  | all => exact S.newArray (toArray_alike h)

/-! ## Reading expressions -/

/-- Reading an expression under a name corresponds if evaluating it does. -/
theorem rel_typedRead (name key : String) {a b : Nat}
    (h : S.Rel w (e₁.ask (.evaluate a key)) (e₂.ask (.evaluate b key))
      (S.optional fun w => Result.Alike (S.pairing w))) :
    S.Rel w (e₁.typedBinding a name (.place (.expression key)))
      (e₂.typedBinding b name (.place (.expression key))) S.value := by
  refine Rel.bind h fun w₁ h₁ r r' hr => ?_
  cases hr with
  | none => exact S.pure .null
  | some hr => exact rel_typedOutcome name hr.outcome

theorem rel_nativeRead (name key : String) {a b : Nat}
    (h : S.Rel w (e₁.ask (.evaluate a key)) (e₂.ask (.evaluate b key))
      (S.optional fun w => Result.Alike (S.pairing w))) :
    S.Rel w (e₁.nativeBinding a name (.place (.expression key)))
      (e₂.nativeBinding b name (.place (.expression key))) S.native := by
  refine Rel.bind h fun w₁ h₁ r r' hr => ?_
  cases hr with
  | none => exact S.pure .null
  | some hr => exact rel_nativeOutcome name hr.outcome

/-! ## The next level -/

/-- The part of two engines that imports corresponds. -/
def Imports (S : Simulation) (e₁ e₂ : Engine) : Prop :=
  ∀ {w a b vs ws} (folder : String), (S.pairing w).sessions a b → S.values w vs ws →
    S.Rel w (e₁.importValue a folder vs) (e₂.importValue b folder ws) S.value

/-- The parts of two engines that lead into sessions correspond. -/
structure Enters (S : Simulation) (e₁ e₂ : Engine) : Prop where
  force : ∀ {w a b}, (S.pairing w).thunks a b → S.Rel w (e₁.force a) (e₂.force b) S.value
  evaluate : ∀ {w a b} (key : String), (S.pairing w).sessions a b →
    S.Rel w (e₁.evaluate a key) (e₂.evaluate b key)
      (S.optional fun w => Result.Alike (S.pairing w))
  folderValue : ∀ {w a b} (key : String), (S.pairing w).sessions a b →
    S.Rel w (e₁.folderValue a key) (e₂.folderValue b key) S.value
  importValue : S.Imports e₁ e₂

/-- An engine answers the requests that do not lead into a session with the parts of
another one. -/
structure Follows (f e : Engine) (fuel : Nat) : Prop where
  text : ∀ v nested, f.ask (.text v nested) = Engine.answer e fuel (.text v nested)
  json : ∀ v, f.ask (.json v) = Engine.answer e fuel (.json v)
  native : ∀ v, f.ask (.native v) = Engine.answer e fuel (.native v)
  equal : ∀ a b, f.ask (.equal a b) = Engine.answer e fuel (.equal a b)
  move : ∀ m v, f.ask (.move m v) = Engine.answer e fuel (.move m v)
  formula : ∀ ev ls x, f.ask (.formula ev ls x) = Engine.answer e fuel (.formula ev ls x)
  callTyped : ∀ g vs, f.ask (.callTyped g vs) = Engine.answer e fuel (.callTyped g vs)
  callNative : ∀ g vs, f.ask (.callNative g vs) = Engine.answer e fuel (.callNative g vs)
  invoke : ∀ r b g n vs, f.ask (.invoke r b g n vs) = Engine.answer e fuel (.invoke r b g n vs)
  statement : ∀ r b st, f.ask (.statement r b st) = Engine.answer e fuel (.statement r b st)
  expression : ∀ r b x, f.ask (.expression r b x) = Engine.answer e fuel (.expression r b x)

theorem follows_answer (e : Engine) (fuel : Nat) :
    Follows ⟨fun r => Engine.answer e fuel r⟩ e fuel :=
  ⟨fun _ _ => rfl, fun _ => rfl, fun _ => rfl, fun _ _ => rfl, fun _ _ => rfl, fun _ _ _ => rfl,
    fun _ _ => rfl, fun _ _ => rfl, fun _ _ _ _ _ => rfl, fun _ _ _ => rfl, fun _ _ _ => rfl⟩

/-- Two engines answer the requests that lead into sessions alike. -/
structure Admits (S : Simulation) (f₁ f₂ : Engine) : Prop where
  force : ∀ {w a b}, (S.pairing w).thunks a b →
    S.Rel w (f₁.ask (.force a)) (f₂.ask (.force b)) S.value
  typedRead : ∀ {w a b} (name key : String), (S.pairing w).sessions a b →
    S.Rel w (f₁.typedBinding a name (.place (.expression key)))
      (f₂.typedBinding b name (.place (.expression key))) S.value
  nativeRead : ∀ {w a b} (name key : String), (S.pairing w).sessions a b →
    S.Rel w (f₁.nativeBinding a name (.place (.expression key)))
      (f₂.nativeBinding b name (.place (.expression key))) S.native
  folderValue : ∀ {w a b} (key : String), (S.pairing w).sessions a b →
    S.Rel w (f₁.ask (.folderValue a key)) (f₂.ask (.folderValue b key)) S.value

namespace Answers

variable (he : S.Answers e₁ e₂)
include he

theorem callTypedCode (hi : S.Imports e₁ e₂) {c d : TypedCode}
    (hc : TypedCode.Alike (S.pairing w) c d)
    (hl : ∀ evaluation locals parameters body, c = .lambda evaluation locals parameters body →
      S.Lambdas e₁ e₂) {vs ws : List Value} (hv : S.values w vs ws) :
    S.Rel w (e₁.callTypedCode c vs) (e₂.callTypedCode d ws) S.value := by
  cases hc with
  | lambda parameters body hev hlocals => exact hl _ _ _ _ rfl parameters body hev hlocals hv
  | math f => exact rel_ofFaulty ((f.apply_same hv).imp fun _ _ h => h.alike)
  | library f => exact he.callLibrary f hv
  | listMethod m items => exact he.callListMethod m items hv
  | stringMethod s m => exact rel_callStringMethod s m hv
  | mappingMethod m entries => exact he.callMappingMethod m entries hv
  | importer folder h => exact hi folder h hv
  | host name reply => exact rel_replyTyped reply hv

theorem callNativeCode {c d : NativeCode} (hc : NativeCode.Alike (S.pairing w) c d)
    {vs ws : List Native} (hv : S.natives w vs ws) :
    S.Rel w (e₁.callNativeCode c vs) (e₂.callNativeCode d ws) S.native := by
  cases hc with
  | script f name hr hb => exact he.invoke f name hr hb hv
  | builtin b => exact rel_callBuiltin b hv
  | host name reply => exact rel_replyNative reply hv
  | bridge hf => exact he.callBridged hf hv

end Answers

namespace Responds

variable (he : S.Responds e₁ e₂) (hS : S.Thorough)
include he hS

/-- Engines that follow engines that answer alike answer alike, if they do so where sessions
are entered. -/
theorem follow (hi : S.Imports e₁ e₂) {m n : Nat} (hf : S.Fuel m n) {f₁ f₂ : Engine}
    (h₁ : Follows f₁ e₁ m) (h₂ : Follows f₂ e₂ n) (hs : S.Admits f₁ f₂) : S.Responds f₁ f₂ where
  force h := hs.force h
  text nested h := h₁.text _ _ ▸ h₂.text _ _ ▸ he.textOf h nested
  json h := h₁.json _ ▸ h₂.json _ ▸ he.jsonOf h
  native h := h₁.native _ ▸ h₂.native _ ▸ he.nativeOf h
  equal ha hb := h₁.equal _ _ ▸ h₂.equal _ _ ▸ he.equalOf ha hb
  move hm h := h₁.move _ _ ▸ h₂.move _ _ ▸ he.moveOf hm h
  formula e h hl := h₁.formula _ _ _ ▸ h₂.formula _ _ _ ▸ he.formulaOf h hl e
  callTyped hg hv := by
    rw [h₁.callTyped, h₂.callTyped]
    cases hg with
    | mk _ hc => exact (he.callTypedCode hi hc (fun _ _ _ _ _ => he.callLambda hS) hv).behindCall
  callNative hg hv := by
    rw [h₁.callNative, h₂.callNative]
    cases hg with
    | mk _ hc => exact (he.callNativeCode hc hv).behindCall
  invoke f name hr hb hv := h₁.invoke .. ▸ h₂.invoke .. ▸ he.invokeOf hS hr hb f name hv
  statement st hr hb := h₁.statement _ _ _ ▸ h₂.statement _ _ _ ▸
    he.supplies.statementOf hf hr hb (he.parts hS.toScripting hr hb st)
  expression e hr hb := h₁.expression _ _ _ ▸ h₂.expression _ _ _ ▸
    he.supplies.expressionOf hr hb e fun s _ => hS.assigns hb s
  typedRead name key h := hs.typedRead name key h
  nativeRead name key h := hs.nativeRead name key h
  folderValue key h := hs.folderValue key h

/-- Engines made from engines that answer alike answer alike. -/
theorem next (hs : S.Enters e₁ e₂) {m n : Nat} (hf : S.Fuel m n) :
    S.Responds ⟨fun r => Engine.answer e₁ m r⟩ ⟨fun r => Engine.answer e₂ n r⟩ :=
  he.follow hS hs.importValue hf (follows_answer e₁ m) (follows_answer e₂ n)
    ⟨hs.force, fun name key h => rel_typedRead name key (hs.evaluate key h),
      fun name key h => rel_nativeRead name key (hs.evaluate key h), hs.folderValue⟩

end Responds

/-- Engines of which no answers ever differ answer alike. -/
theorem responds_of_all
    (h : ∀ {w : S.World} {α : Type} (q r : Request α) {R : S.World → α → α → Prop},
      S.Rel w (e₁.ask q) (e₂.ask r) R) : S.Responds e₁ e₂ where
  force _ := h _ _
  text _ _ := h _ _
  json _ := h _ _
  native _ := h _ _
  equal _ _ := h _ _
  move _ _ := h _ _
  formula _ _ _ := h _ _
  callTyped _ _ := h _ _
  callNative _ _ := h _ _
  invoke _ _ _ _ _ := h _ _
  statement _ _ _ := h _ _
  expression _ _ _ := h _ _
  typedRead name key _ := rel_typedRead name key (h _ _)
  nativeRead name key _ := rel_nativeRead name key (h _ _)
  folderValue _ _ := h _ _

/-- An engine without fuel answers nothing. -/
theorem responds_zero : S.Responds (Engine.ofFuel 0) (Engine.ofFuel 0) :=
  responds_of_all fun _ _ => S.exhausted

end Simulation
end Workbook
