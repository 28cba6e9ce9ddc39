/-
Sessions catch every failure.

Evaluating an expression, computing a folder, forcing a lazy entry and converting a value
to its native form never fail: whatever goes wrong in a formula or a script becomes the
outcome of its expression.  They may still not end, which shows as exhausted fuel.
-/
import Workbook.Proofs.Pairing

namespace Workbook

/-- A run that does not fail, from any store. -/
structure Run.Total {α : Type} (x : Run α) : Prop where
  ends : ∀ s f s', x s ≠ .error (.failed f) s'

namespace Run

variable {α β : Type}

theorem total_pure (a : α) : (pure a : Run α).Total :=
  ⟨fun _ _ _ h => by cases h⟩

theorem total_modifyGet (f : Store → α × Store) : (modifyGet f : Run α).Total :=
  ⟨fun _ _ _ h => by cases h⟩

theorem total_modify (f : Store → Store) : (modify f : Run PUnit).Total :=
  total_modifyGet _

theorem total_exhausted : (exhausted : Run α).Total :=
  ⟨fun _ _ _ h => by cases h⟩

theorem Total.bind {x : Run α} {k : α → Run β} (hx : x.Total) (hk : ∀ a, (k a).Total) :
    (x >>= k).Total := by
  refine ⟨fun s f s' h => ?_⟩
  change EStateM.bind x k s = _ at h
  unfold EStateM.bind at h
  have hx := hx.ends s
  generalize x s = r at h hx
  cases r with
  | ok a t => exact (hk a).ends t f s' h
  | error e t =>
    have h : (.error e t : EStateM.Result Stop Store β) = .error (.failed f) s' := h
    cases h
    exact hx f _ rfl

theorem total_get {k : Store → Run α} (hk : ∀ s, (k s).Total) : (get >>= k).Total :=
  ⟨fun s f s' h => (hk s).ends s f s' h⟩

theorem Total.map {x : Run α} (hx : x.Total) (f : α → β) : (f <$> x).Total := by
  rw [map_eq_pure_bind]
  exact hx.bind fun _ => total_pure _

theorem total_newResult (o : Outcome) : (newResult o).Total :=
  (total_modifyGet _).bind fun _ => total_pure _

/-- A failure that is caught is none. -/
theorem total_outcome (x : Run α) : (outcome x).Total := by
  refine ⟨fun s f s' h => ?_⟩
  unfold outcome at h
  generalize x s = r at h
  cases r with
  | ok a t => cases h
  | error e t => cases e <;> cases h

theorem total_mapM {f : α → Run β} (hf : ∀ a, (f a).Total) (as : List α) :
    (as.mapM f).Total := by
  induction as with
  | nil => exact total_pure _
  | cons a as ih =>
    rw [List.mapM_cons]
    exact (hf a).bind fun _ => ih.bind fun _ => total_pure _

theorem total_foldlM {f : β → α → Run β} (hf : ∀ b a, (f b a).Total) (as : List α) (b : β) :
    (as.foldlM f b).Total := by
  induction as generalizing b with
  | nil => exact total_pure _
  | cons a as ih =>
    rw [List.foldlM_cons]
    exact (hf b a).bind ih

end Run

namespace Engine

open Run

/-- An engine that catches failures where sessions do. -/
structure Total (e : Engine) : Prop where
  force : ∀ t, (e.ask (.force t)).Total
  native : ∀ v, (e.ask (.native v)).Total
  evaluate : ∀ place key, (e.ask (.evaluate place key)).Total
  folderValue : ∀ place key, (e.ask (.folderValue place key)).Total

namespace Total

variable {e : Engine} (he : e.Total)
include he

theorem perform (w : Work) : (e.perform w).Total := by
  cases w with
  | value v => exact total_pure v
  | expression place key =>
    refine total_get fun s => ?_
    split
    · exact (he.evaluate place key).bind fun o => by cases o <;> exact total_pure _
    · exact total_pure _
  | folder place key =>
    refine total_get fun s => ?_
    split
    · exact he.folderValue place key
    · exact total_pure _

theorem forceOf (t : Nat) : (e.force t).Total := by
  refine total_get fun s => ?_
  split
  · exact total_pure _
  · refine (he.perform _).bind fun v => total_get fun s => ?_
    split
    · exact total_pure _
    · exact (total_modify _).bind fun _ => total_pure _
  · exact total_pure _

theorem read (slot : Slot) : (e.read slot).Total := by
  cases slot with
  | ready v => exact total_pure v
  | lazy t => exact he.force t

theorem entriesNative (es : Entries) : (e.entriesNative es).Total := by
  induction es with
  | nil => exact total_pure _
  | cons x rest ih =>
    exact (he.read _).bind fun v => (he.native v).bind fun _ => ih.bind fun _ => total_pure _

theorem nativeOf (v : Value) : (e.native v).Total := by
  unfold Engine.native
  split
  case h_9 =>
    refine total_get fun s => ?_
    split
    · exact total_pure _
    · exact (total_mapM he.native _).bind fun _ => total_modifyGet _
  case h_10 =>
    refine total_get fun s => ?_
    split
    · exact total_pure _
    · exact (he.entriesNative _).bind fun _ => total_modifyGet _
  case h_12 => exact (total_modifyGet _).bind fun _ => total_pure _
  case h_13 =>
    split
    · exact (he.native _).bind fun _ => total_modifyGet _
    · exact total_modifyGet _
  all_goals exact total_pure _

/-! ## Executing -/

theorem executeFormula (place : Nat) (s : Session) (node : Outline.Expression) :
    (e.executeFormula place s node).Total := by
  unfold Engine.executeFormula
  simp only
  split
  · exact total_pure _
  · refine (total_outcome _).bind fun r => ?_
    split
    · exact total_pure _
    · exact (he.native _).bind fun n => (total_modify _).bind fun _ => total_pure _

omit he in
theorem compiled (place : Nat) (s : Session) (source : Source) :
    (Engine.compiled place s source).Total := by
  unfold Engine.compiled
  split
  · exact total_pure _
  · split
    · exact total_pure _
    · exact (total_modify _).bind fun _ => total_pure _

omit he in
theorem executeScript (place : Nat) (s : Session) (node : Outline.Expression) :
    (e.executeScript place s node).Total := by
  refine (compiled place s _).bind fun c => ?_
  split
  · exact total_pure _
  · refine (total_outcome _).bind fun r => ?_
    split
    · exact total_pure _
    · refine total_get fun s => ?_
      split
      · exact total_pure _
      · exact (total_modify _).bind fun _ => total_pure _

theorem execute (place : Nat) (s : Session) (node : Outline.Expression) :
    (e.execute place s node).Total := by
  refine (total_modify _).bind fun _ => ?_
  split
  · exact he.executeFormula place s node
  · exact executeScript place s node

theorem evaluateOf (place : Nat) (key : String) : (e.evaluate place key).Total := by
  refine total_get fun s => ?_
  split
  · exact total_pure _
  · split
    · exact total_pure _
    · exact (total_modify _).bind fun _ => total_pure _
    · split
      · exact (total_modify _).bind fun _ => (total_newResult _).map _
      · exact (total_modify _).bind fun _ => (he.execute _ _ _).bind fun _ =>
          (total_newResult _).bind fun _ => (total_modify _).bind fun _ => total_pure _

/-! ## Folders -/

theorem firstResult (place : Nat) (keys : List String) : (e.firstResult place keys).Total := by
  induction keys with
  | nil => exact total_pure _
  | cons key rest ih =>
    refine (he.evaluate place key).bind fun o => ?_
    cases o with
    | none => exact ih
    | some r => exact total_pure _

omit he in
theorem lazyEntries (place : Nat) (o : Outline) (key : String) :
    (Engine.lazyEntries place o key).Total :=
  (total_foldlM (fun _ _ => (total_modifyGet _).bind fun _ => total_pure _) _ _).bind fun _ =>
    total_foldlM (fun _ _ => (total_modifyGet _).bind fun _ => total_pure _) _ _

theorem folderValueOf (place : Nat) (key : String) : (e.folderValue place key).Total := by
  refine total_get fun s => ?_
  split
  · exact total_pure _
  · simp only
    split
    · exact total_pure _
    · refine (he.firstResult _ _).bind fun r => ?_
      split
      · exact total_pure _
      · split
        · exact total_pure _
        · exact (lazyEntries _ _ _).bind fun _ => (total_modify _).bind fun _ => total_pure _

end Total

/-- Every engine catches failures where sessions do. -/
theorem total_ofFuel : ∀ fuel, (ofFuel fuel).Total
  | 0 => ⟨fun _ => total_exhausted, fun _ => total_exhausted, fun _ _ => total_exhausted,
      fun _ _ => total_exhausted⟩
  | fuel + 1 =>
    have he := total_ofFuel fuel
    ⟨he.forceOf, he.nativeOf, he.evaluateOf, he.folderValueOf⟩

end Engine
end Workbook
