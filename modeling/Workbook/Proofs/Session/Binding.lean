/-
Reading a name of a folder.

A formula and a script find the same binding under a name (`lookUp_bound`, `folderName_bound`), and
where it is an expression they read its result, the one in its form for formulas and the other one
in its native form.  A result that is read is kept from then on, unless the expression is being
executed; then what is read is the failure `x.circular` (`evaluate_kept_or_circular`).
-/
import Workbook.Proofs.Session.Folder
import Workbook.Proofs.Session.Retention

namespace Workbook

theorem Run.behindCall_congr {α : Type} {x y : Run α} {u u' : Store} (h : x u = y u') :
    Run.behindCall x u = Run.behindCall y u' := by
  unfold Run.behindCall Run.mapFailure
  rw [h]

/-- What is done with the value of a call is done behind it. -/
theorem Run.behindCall_bind_pure {α β : Type} (x : Run α) (f : α → β) :
    Run.behindCall (do return f (← x)) = (do return f (← Run.behindCall x)) := by
  funext u
  show Run.mapFailure _ (x >>= fun a => pure (f a)) u = _
  unfold Run.mapFailure
  cases hx : x u with
  | ok a u' =>
    have hbehind : Run.behindCall x u = .ok a u' := by
      unfold Run.behindCall Run.mapFailure
      rw [hx]
    rw [Run.bind_run hx, Run.bind_run hbehind]
    rfl
  | error err u' =>
    rw [Run.bind_error hx]
    cases err with
    | failed f =>
      have hbehind : Run.behindCall x u =
          .error (.failed (.ofCause (.fault f.cause.toFault))) u' := by
        unfold Run.behindCall Run.mapFailure
        rw [hx]
      exact (Run.bind_error hbehind).symm
    | exhausted =>
      have hbehind : Run.behindCall x u = .error .exhausted u' := by
        unfold Run.behindCall Run.mapFailure
        rw [hx]
      exact (Run.bind_error hbehind).symm

/-- What means an expression is one. -/
theorem Outline.expression?_of_place? {o : Outline} {folder name key : String}
    (h : o.place? folder name = some (.expression key)) : ∃ x, o.expression? key = some x := by
  obtain ⟨f, -, hf⟩ := List.exists_of_findSome?_eq_some h
  unfold placeIn? at hf
  simp only at hf
  split at hf
  · rename_i hsome
    cases hf
    exact Option.isSome_iff_exists.1 hsome
  · split at hf <;> cases hf

namespace Engine

variable {e : Engine} {u u' : Store} {place : Nat} {folder name key : String} {σ : Session}

/-! ## Bindings -/

/-- A session that is there and alive. -/
theorem session_run (hσ : u.sessions[place]? = some σ) (alive : σ.alive = true) :
    Run.session place u = .ok σ u := by
  have hthere : Run.session? place u = .ok (some σ) u := by
    show EStateM.Result.ok ((u.sessions[place]?).filter (·.alive)) u = _
    rw [hσ, Option.filter_some, if_pos alive]
  unfold Run.session
  rw [Run.bind_run hthere]
  rfl

/-- Reads what a formula has found under a name. -/
def typedFound (e : Engine) (place : Nat) (name : String) : Option Binding → Run (Option Value)
  | some b => do return some (← e.typedBinding place name b)
  | none => return none

/-- Reads what a script has found under a name. -/
def nativeFound (e : Engine) (place : Nat) (name : String) : Option Binding → Run (Option Native)
  | some b => do return some (← e.nativeBinding place name b)
  | none => return none

/-- A formula reads what its folder binds. -/
theorem lookUp_bound {b : Option Binding} (hσ : u.sessions[place]? = some σ)
    (alive : σ.alive = true) (hb : σ.binding place folder name u = .ok b u') :
    e.lookUp (.folder place folder) name u = e.typedFound place name b u' := by
  unfold lookUp
  simp only
  rw [Run.bind_run (session_run hσ alive), Run.bind_run hb]
  cases b <;> rfl

/-- A script reads what its folder binds, behind a call. -/
theorem folderName_bound {b : Option Binding} (hσ : u.sessions[place]? = some σ)
    (alive : σ.alive = true) (hb : σ.binding place folder name u = .ok b u') :
    e.folderName place folder name u = Run.behindCall (e.nativeFound place name b) u' := by
  refine Run.behindCall_congr ?_
  rw [Run.bind_run (session_run hσ alive), Run.bind_run hb]
  cases b <;> rfl

/-- A name that means something in a folder. -/
theorem binding_place {p : Outline.Place} (h : σ.outline.place? folder name = some p) (u : Store) :
    σ.binding place folder name u = .ok (some (.place p)) u := by
  unfold Session.binding
  rw [h]
  rfl

/-! ## Results that are read -/

/-- What an expression is answered with is kept as its result, unless it is being executed. -/
theorem evaluate_kept_or_circular {fuel : Nat} {x : Outline.Expression}
    (hσ : u.sessions[place]? = some σ) (hx : σ.outline.expression? key = some x)
    {a : Option Result} (h : (Engine.ofFuel fuel).ask (.evaluate place key) u = .ok a u') :
    ∃ r, a = some r ∧ (u'.result? place key = some r ∨ key ∈ σ.inFlight ∧ r.outcome = x.circular) := by
  have hsteady := (Engine.steady_ofFuel fuel (.evaluate place key)).ends (.value h)
  cases fuel with
  | zero => cases h
  | succ fuel =>
    change (Engine.ofFuel fuel).evaluate place key u = .ok a u' at h
    cases u.lookup place key with
    | absent hnone =>
      rw [Store.expression?_of_outline hσ, hx] at hnone
      cases hnone
    | @kept _ r hy hr =>
      cases ((Engine.ofFuel fuel).evaluate_kept hy hr).symm.trans h
      exact ⟨r, rfl, .inl ((Store.result?_changeSession ..).trans hr)⟩
    | circular hτ hy hr hmem =>
      obtain rfl := Option.some.inj (hσ.symm.trans hτ)
      obtain rfl := Option.some.inj (hx.symm.trans hy)
      cases ((Engine.ofFuel fuel).evaluate_circular hσ hx hr hmem).symm.trans h
      exact ⟨_, rfl, .inr ⟨hmem, rfl⟩⟩
    | new hτ hy hr hnew =>
      rw [Engine.evaluate_new _ hτ hy hr hnew, Accord.executing_run] at h
      generalize (Engine.ofFuel fuel).execute place _ _ _ = result at h
      cases result with
      | error e s₁ => cases h
      | ok o s₁ =>
        cases h
        exact ⟨⟨s₁.fresh, o⟩, rfl, .inl (Store.result?_finished hτ hsteady)⟩

/-- An expression is never answered with a failure. -/
theorem evaluate_ends (fuel : Nat) (u : Store) (place : Nat) (key : String) :
    (∃ a u', (Engine.ofFuel fuel).ask (.evaluate place key) u = .ok a u') ∨
      ∃ u', (Engine.ofFuel fuel).ask (.evaluate place key) u = .error .exhausted u' := by
  have htotal := ((Engine.total_ofFuel fuel).evaluate place key).ends u
  cases h : (Engine.ofFuel fuel).ask (.evaluate place key) u with
  | ok a u' => exact .inl ⟨a, u', rfl⟩
  | error err u' =>
    cases err with
    | failed f => exact absurd h (htotal f u')
    | exhausted => exact .inr ⟨u', rfl⟩

end Engine

/-! ## Formulas -/

/-- In an evaluation, a name means an expression of a session. -/
structure Store.Means (u : Store) (evaluation place : Nat) (folder name key : String)
    (σ : Session) : Prop where
  scope : (u.evaluations[evaluation]?).map (·.scope) = some (.folder place folder)
  session : u.sessions[place]? = some σ
  alive : σ.alive = true
  place : σ.outline.place? folder name = some (.expression key)

namespace Store.Means

variable {u : Store} {evaluation place : Nat} {folder name key : String} {σ : Session}

/-- The value of the name is that of the result. -/
theorem nameValue_run (h : u.Means evaluation place folder name key σ) (e : Engine) :
    e.nameValue evaluation [] name u = (do
      match ← e.ask (.evaluate place key) with
      | some r => Engine.typedOutcome name r.outcome
      | none => return .null : Run Value) u := by
  obtain ⟨E, hE, hscope⟩ := Option.map_eq_some_iff.1 h.scope
  have hlook := Engine.lookUp_bound (e := e) h.session h.alive (Engine.binding_place h.place u)
  unfold Engine.nameValue
  simp only [List.lookup_nil]
  rw [Run.get_bind]
  simp only [hE, hscope]
  cases hv : e.typedBinding place name (.place (.expression key)) u with
  | ok v u' =>
    have hrun : e.lookUp (.folder place folder) name u = .ok (some v) u' := by
      rw [hlook]
      exact Run.bind_run hv
    rw [Run.bind_run hrun]
    exact hv.symm
  | error err u' =>
    have hrun : e.lookUp (.folder place folder) name u = .error err u' := by
      rw [hlook]
      exact Run.bind_error hv
    exact (Run.bind_error hrun).trans hv.symm

/-- A formula that reads the name does not end, or fails since the expression is being executed, or
reads a result that is kept. -/
theorem answers (h : u.Means evaluation place folder name key σ) {x : Outline.Expression}
    (hx : σ.outline.expression? key = some x) (fuel : Nat) (span : Span) :
    (∃ u', (Engine.ofFuel fuel).ask (.formula evaluation [] (.name span name)) u =
        .error .exhausted u') ∨
      (key ∈ σ.inFlight ∧ ∃ f u',
        (Engine.ofFuel fuel).ask (.formula evaluation [] (.name span name)) u =
          .error (.failed f) u' ∧ Outcome.ofCause f.cause = x.circular) ∨
      ∃ r u', u'.result? place key = some r ∧
        (Engine.ofFuel fuel).ask (.formula evaluation [] (.name span name)) u =
          Engine.typedOutcome name r.outcome u' := by
  cases fuel with
  | zero => exact .inl ⟨u, rfl⟩
  | succ fuel =>
    have hrun : (Engine.ofFuel (fuel + 1)).ask (.formula evaluation [] (.name span name)) u = _ :=
      h.nameValue_run (Engine.ofFuel fuel)
    rw [hrun]
    obtain ⟨a, u', ha⟩ | ⟨u', hexhausted⟩ := Engine.evaluate_ends fuel u place key
    · obtain ⟨r, rfl, hr⟩ := Engine.evaluate_kept_or_circular h.session hx ha
      rw [Run.bind_run ha]
      obtain hr | ⟨hmem, hr⟩ := hr
      · exact .inr (.inr ⟨r, u', hr, rfl⟩)
      · refine .inr (.inl ⟨hmem, .ofCause (.engine ("circular reference: " ++ x.path)), u', ?_, rfl⟩)
        simp only
        rw [hr]
        rfl
    · exact .inl ⟨u', Run.bind_error hexhausted⟩

end Store.Means

/-! ## Scripts -/

/-- In a block of a script that has not read it before, a name means an expression of a session. -/
structure Store.Seeks (u : Store) (run block place : Nat) (folder name key : String)
    (σ : Session) : Prop where
  execution : ∃ x, u.executions[run]? = some x ∧ x.scope = .folder place folder ∧
    x.known.lookup name = none
  unbound : u.valueOf? block name = none
  outer : Script.Global.ofName? name = none
  session : u.sessions[place]? = some σ
  alive : σ.alive = true
  place : σ.outline.place? folder name = some (.expression key)

namespace Store.Seeks

variable {u u' : Store} {run block place : Nat} {folder name key : String} {σ : Session}

/-- The script reads the native form of the result, and remembers it. -/
theorem nameInScript_run (h : u.Seeks run block place folder name key σ) (e : Engine) :
    e.nameInScript run block name u = (do
      let v ← Run.behindCall (e.nativeBinding place name (.place (.expression key)))
      Run.remember run name v
      return v : Run Native) u := by
  obtain ⟨x, hx, hscope, hknown⟩ := h.execution
  have hname := Engine.folderName_bound (e := e) h.session h.alive (Engine.binding_place h.place u)
  have houter : e.outerName run name u = (do
      let found ← e.folderName place folder name
      found.forM (Run.remember run name)
      return found : Run (Option Native)) u := by
    unfold Engine.outerName
    rw [Run.get_bind]
    simp only [hx, hscope, hknown, h.outer]
  unfold Engine.nameInScript
  rw [Run.get_bind]
  simp only [h.unbound]
  have hfound : e.folderName place folder name u = (do
      let v ← Run.behindCall (e.nativeBinding place name (.place (.expression key)))
      return some v : Run (Option Native)) u :=
    hname.trans (congrFun (Run.behindCall_bind_pure _ some) u)
  cases hv : Run.behindCall (e.nativeBinding place name (.place (.expression key))) u with
  | ok v u' =>
    rw [Run.bind_run hv] at hfound
    rw [Run.bind_run hfound] at houter
    rw [Run.bind_run houter, Run.bind_run hv]
    rfl
  | error err u' =>
    have hfound : e.folderName place folder name u = .error err u' := hfound.trans (Run.bind_error hv)
    have houter : e.outerName run name u = .error err u' := houter.trans (Run.bind_error hfound)
    exact (Run.bind_error houter).trans (Run.bind_error hv).symm

end Store.Seeks
end Workbook
