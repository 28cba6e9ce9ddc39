/-
What leads from a store to the stores that come after it.

A `Course` is a relation of an earlier and a later store that formulas and scripts keep because
they touch neither sessions nor modules by themselves.  What executions and the loading of modules
do to a store depends on what they found there, so the rules for these two, `Executes` and
`Loads`, are stated for one store at a time, with everything that was looked up in it; a
`Lasting` asks for them in every store.  From the two rules, `serves` gives the course of
whatever an engine is asked.
-/
import Workbook.Proofs.Accord
import Workbook.Proofs.Session.Query
import Workbook.Proofs.Session.Stack

open List (Forall₂)

namespace Workbook

/-- A sequence ends where its second run ends, or else where the first one fails. -/
theorem Run.endsIn_bind {α β : Type} {x : Run α} {k : α → Run β} {s s' : Store}
    (h : (x >>= k).EndsIn s s') :
    (∃ a s₁, x s = .ok a s₁ ∧ (k a).EndsIn s₁ s') ∨ ∃ f, x s = .error (.failed f) s' := by
  cases hx : x s with
  | ok a s₁ =>
    refine .inl ⟨a, s₁, rfl, ?_⟩
    cases h with
    | value h => exact .value ((Run.bind_run hx).symm.trans h)
    | failure h => exact .failure ((Run.bind_run hx).symm.trans h)
  | error e s₁ =>
    have hbind : (x >>= k) s = .error e s₁ := Run.bind_error hx
    cases h with
    | value h => cases hbind.symm.trans h
    | failure h =>
      cases hbind.symm.trans h
      exact .inr ⟨_, rfl⟩

/-! ## Courses -/

/-- A session without what it has looked up, compiled and counted, its executions apart. -/
def Session.core (σ : Session) : Session :=
  { σ with
    folderValues := []
    imports := []
    scripts := .empty 0
    stats := ⟨σ.stats.executions, 0, 0⟩ }

/-- A change of what a session has looked up, compiled or counted, and of nothing else. -/
def Session.Minor (f : Session → Session) : Prop :=
  ∀ σ, (f σ).core = σ.core

/-- A relation of an earlier and a later store. -/
structure Course where
  Goes : Store → Store → Prop
  refl : ∀ s, Goes s s
  trans : ∀ {s t u}, Goes s t → Goes t u → Goes s u
  unchanged : ∀ {s s'}, s'.sessions = s.sessions → s'.modules = s.modules → Goes s s'
  minor : ∀ s place {f}, Session.Minor f → Goes s (s.changeSession place f)

namespace Course

variable {C : Course} {α β : Type}

/-- From a store, a run goes along, whether it comes to a value or a failure. -/
def From (C : Course) (x : Run α) (s : Store) : Prop :=
  ∀ s', x.EndsIn s s' → C.Goes s s'

/-- A run that goes along from every store. -/
def Keeps (C : Course) (x : Run α) : Prop :=
  ∀ s, C.From x s

/-! ### Sequences -/

theorem from_pure (a : α) (s : Store) : C.From (pure a : Run α) s := by
  intro s' h
  cases h with
  | value h => cases h; exact C.refl s
  | failure h => cases h

theorem from_fail (c : Cause) (s : Store) : C.From (Run.fail c : Run α) s := by
  intro s' h
  cases h with
  | value h => cases h
  | failure h => cases h; exact C.refl s

theorem from_modifyGet {f : Store → α × Store} {s : Store} (h : C.Goes s (f s).2) :
    C.From (modifyGet f : Run α) s := by
  intro s' hs'
  cases hs' with
  | value hs' => cases hs'; exact h
  | failure hs' => cases hs'

theorem From.bind {x : Run α} {k : α → Run β} {s : Store} (h : C.From x s)
    (hk : ∀ a s', x s = .ok a s' → C.From (k a) s') : C.From (x >>= k) s := by
  intro s' hs'
  rcases Run.endsIn_bind hs' with ⟨a, s₁, hx, hs'⟩ | ⟨f, hx⟩
  · exact C.trans (h s₁ (.value hx)) (hk a s₁ hx s' hs')
  · exact h s' (.failure hx)

/-- Reading the store leaves it as it is. -/
theorem from_get {k : Store → Run α} {s : Store} (h : C.From (k s) s) : C.From (get >>= k) s :=
  From.bind (from_modifyGet (f := fun s => (s, s)) (C.refl s)) fun a s' ha => by
    cases ha
    exact h

theorem Keeps.bind {x : Run α} {k : α → Run β} (h : C.Keeps x) (hk : ∀ a, C.Keeps (k a)) :
    C.Keeps (x >>= k) :=
  fun s => (h s).bind fun a s' _ => hk a s'

theorem keeps_pure (a : α) : C.Keeps (pure a : Run α) :=
  from_pure a

theorem keeps_fault (f : Fault) : C.Keeps (Run.fault f : Run α) :=
  from_fail _

theorem keeps_ofFaulty : ∀ x : Except Fault α, C.Keeps (Run.ofFaulty x)
  | .ok a => keeps_pure a
  | .error f => keeps_fault f

theorem keeps_get {k : Store → Run α} (h : ∀ s, C.From (k s) s) : C.Keeps (get >>= k) :=
  fun s => from_get (h s)

theorem keeps_mapM {f : α → Run β} (h : ∀ a, C.Keeps (f a)) (as : List α) :
    C.Keeps (as.mapM f) := by
  induction as with
  | nil => exact keeps_pure []
  | cons a as ih =>
    rw [List.mapM_cons]
    exact (h a).bind fun b => ih.bind fun bs => keeps_pure (b :: bs)

theorem keeps_foldlM {f : β → α → Run β} (h : ∀ b a, C.Keeps (f b a)) (as : List α) (b : β) :
    C.Keeps (as.foldlM f b) := by
  induction as generalizing b with
  | nil => exact keeps_pure b
  | cons a as ih =>
    rw [List.foldlM_cons]
    exact (h b a).bind fun b => ih b

/-- A failure that is caught leaves the store where the run has come to. -/
theorem Keeps.outcome {x : Run α} (h : C.Keeps x) : C.Keeps (Run.outcome x) := by
  intro s s' hs'
  have hx := h s s'
  cases hs' with
  | value hs' =>
    unfold Run.outcome at hs'
    generalize hr : x s = r at hs'
    match r, hs' with
    | .ok a t, hs' => cases hs'; exact hx (.value hr)
    | .error (.failed f) t, hs' => cases hs'; exact hx (.failure hr)
    | .error .exhausted t, hs' => cases hs'
  | failure hs' => exact absurd hs' ((Run.total_outcome x).ends s _ s')

theorem keeps_unchanged {f : Store → α × Store} (sessions : ∀ s, (f s).2.sessions = s.sessions)
    (modules : ∀ s, (f s).2.modules = s.modules) : C.Keeps (modifyGet f : Run α) :=
  fun s => from_modifyGet (C.unchanged (sessions s) (modules s))

theorem keeps_minor (place : Nat) {f : Session → Session} (h : Session.Minor f) :
    C.Keeps (Run.changeSession place f) :=
  fun s => from_modifyGet (C.minor s place h)

theorem keeps_newResult (o : Outcome) : C.Keeps (Run.newResult o) :=
  (keeps_unchanged (fun _ => rfl) fun _ => rfl).bind fun _ => keeps_pure _

theorem keeps_newThunk (work : Work) : C.Keeps (Run.newThunk work) :=
  keeps_unchanged (fun _ => rfl) fun _ => rfl

theorem keeps_freeze (n : Native) : C.Keeps (Run.freeze n) := by
  have h (s : Store) := Store.ordinary_freeze s n
  exact keeps_unchanged (fun s => (h s).sessions) fun s => (h s).modules

/-! ### The simulation -/

/-- Stores along the course, each paired with itself. -/
def coupling (C : Course) : Coupling :=
  .ofInvariant (@Eq Store) (fun _ => rfl) (fun h h' => h.trans h') (fun w s => C.Goes w s)
    fun h ho => C.trans h (C.unchanged ho.sessions ho.modules)

theorem Keeps.rel {x : Run α} (h : C.Keeps x) (w : Store) :
    C.coupling.Rel w x x fun _ => Eq := by
  refine ⟨?_⟩
  intro s t hi
  obtain ⟨rfl, hs⟩ := hi
  have hends := h s
  cases hr : x s with
  | ok a s' => exact ⟨w, rfl, ⟨rfl, C.trans hs (hends s' (.value hr))⟩, rfl⟩
  | error e s' =>
    cases e with
    | failed f => exact ⟨rfl, w, rfl, rfl, C.trans hs (hends s' (.failure hr))⟩
    | exhausted => exact trivial

theorem keeps_of_rel {x : Run α} {R : Store → α → α → Prop}
    (h : ∀ w, C.coupling.Rel w x x R) : C.Keeps x := by
  intro s s' hs'
  have hends := (h s).ends s s ⟨rfl, C.refl s⟩
  cases hs' with
  | value hs' =>
    rw [hs'] at hends
    obtain ⟨w, hw, ⟨-, hgoes⟩, -⟩ := hends
    obtain rfl : s = w := hw
    exact hgoes
  | failure hs' =>
    rw [hs'] at hends
    obtain ⟨-, w, hw, -, hgoes⟩ := hends
    obtain rfl : s = w := hw
    exact hgoes

/-! ## Engines -/

/-- An engine that goes along whatever it is asked. -/
structure Serves (C : Course) (e : Engine) : Prop where
  answers : C.coupling.simulation.Responds e e
  evaluate : ∀ place key, C.Keeps (e.ask (.evaluate place key))

/-- An execution that was not begun before goes along, if what is executed does once the
execution is counted. -/
def Executes (C : Course) : Prop :=
  ∀ {s : Store} {place : Nat} {key : String} {σ : Session} {x : Outline.Expression}
    {y : Run Outcome}, s.sessions[place]? = some σ → σ.outline.expression? key = some x →
    σ.results.lookup key = none → key ∉ σ.inFlight → y.Total → C.Keeps y →
    C.From (Run.executing place key
      (Run.count place (fun c => { c with executions := c.executions + 1 }) >>= fun _ => y)) s

/-- Loading a module that is neither loaded nor being loaded goes along. -/
def Loads (C : Course) : Prop :=
  ∀ {fuel : Nat} {s : Store} {σ : Session} {m : Modules} {specifier : String} {tree : Tree},
    C.Serves (.ofFuel fuel) → s.modules[σ.modules]? = some m → m.alive = true →
    m.loaded.lookup specifier = none → specifier ∉ m.loading →
    m.registry.lookup specifier = some tree →
    C.From ((Engine.ofFuel fuel).loadModule σ specifier tree) s

namespace Serves

variable {e : Engine} (he : C.Serves e)
include he

theorem folderValue (place : Nat) (key : String) : C.Keeps (e.ask (.folderValue place key)) :=
  keeps_of_rel (R := fun _ => Value.Alike .same) fun _ => he.answers.folderValue key rfl

theorem native (v : Value) : C.Keeps (e.ask (.native v)) :=
  keeps_of_rel (R := fun _ => Native.Alike .same) fun _ => he.answers.native v.alike_self

/-- Whatever is asked goes along. -/
theorem ask {α : Type} (r : Request α) : C.Keeps (e.ask r) :=
  keeps_of_rel (R := fun _ => Eq) fun w =>
    he.answers.agree (fun _ => rfl) (fun w place key => (he.evaluate place key).rel w) w r

/-! ### Lazy entries -/

theorem perform (work : Work) : C.Keeps (e.perform work) := by
  cases work with
  | value x => exact keeps_pure x
  | expression place key =>
    refine keeps_get fun s => ?_
    split
    · refine ((he.evaluate place key).bind fun r => ?_) s
      cases r with
      | none => exact keeps_pure _
      | some r => exact keeps_pure _
    · exact from_pure _ s
  | folder place key =>
    refine keeps_get fun s => ?_
    split
    · exact he.folderValue place key s
    · exact from_pure _ s

theorem force (thunk : Nat) : C.Keeps (e.force thunk) := by
  refine keeps_get fun s => ?_
  split
  · exact from_pure _ s
  · refine ((he.perform _).bind fun v => keeps_get fun t => ?_) s
    split
    · exact from_pure _ t
    · exact ((keeps_unchanged (fun _ => rfl) fun _ => rfl).bind fun _ => keeps_pure v) t
  · exact from_pure _ s

/-! ### Folders -/

theorem firstResult (place : Nat) (keys : List String) : C.Keeps (e.firstResult place keys) := by
  induction keys with
  | nil => exact keeps_pure none
  | cons key rest ih =>
    refine (he.evaluate place key).bind fun r => ?_
    cases r with
    | none => exact ih
    | some r => exact keeps_pure _

omit he in
theorem lazyEntries (place : Nat) (o : Outline) (key : String) :
    C.Keeps (Engine.lazyEntries place o key) :=
  (keeps_foldlM (fun _ _ => (keeps_newThunk _).bind fun _ => keeps_pure _) _ _).bind fun _ =>
    keeps_foldlM (fun _ _ => (keeps_newThunk _).bind fun _ => keeps_pure _) _ _

theorem folderValueOf (place : Nat) (key : String) : C.Keeps (e.folderValue place key) := by
  refine keeps_get fun s => ?_
  split
  · exact from_pure _ s
  · simp only
    split
    · exact from_pure _ s
    · refine ((he.firstResult place _).bind fun r => ?_) s
      split
      · exact keeps_pure _
      · split
        · exact keeps_pure _
        · refine (lazyEntries place _ key).bind fun es => Keeps.bind (keeps_minor place ?_)
            fun _ => keeps_pure _
          exact fun _ => rfl

/-! ### Imports -/

theorem valueAt? (place : Nat) (o : Outline) (key : String) : C.Keeps (e.valueAt? place o key) := by
  unfold Engine.valueAt?
  split
  · exact (he.evaluate place key).bind fun _ => keeps_pure _
  · split
    · exact (he.folderValue place key).bind fun _ => keeps_pure _
    · exact keeps_pure _

theorem importRelative (place : Nat) (σ : Session) (folder specifier : String) :
    C.Keeps (e.importRelative place σ folder specifier) := by
  unfold Engine.importRelative
  split
  · exact keeps_fault _
  · split
    · exact keeps_pure _
    · refine (he.valueAt? place _ _).bind fun v => ?_
      cases v with
      | none => exact keeps_fault _
      | some v =>
        refine Keeps.bind (keeps_minor place ?_) fun _ => keeps_pure v
        exact fun _ => rfl

/-! ### Executing -/

theorem executeFormula (place : Nat) (σ : Session) (x : Outline.Expression) :
    C.Keeps (e.executeFormula place σ x) := by
  unfold Engine.executeFormula
  simp only
  split
  · exact keeps_pure _
  · rename_i body _
    have hrun : C.Keeps (e.runFormula (.folder place x.parent) σ.settings.maxCallDepth body) :=
      keeps_of_rel (R := fun _ => Value.Alike .same) fun _ =>
        he.answers.runFormula (.folder _ rfl) _ _
    refine hrun.outcome.bind fun r => ?_
    cases r with
    | error f => exact keeps_pure _
    | ok v => exact (he.native v).bind fun n => (keeps_freeze n).bind fun _ => keeps_pure _

omit he in
theorem compiled (place : Nat) (σ : Session) (source : Source) :
    C.Keeps (Engine.compiled place σ source) := by
  unfold Engine.compiled
  split
  · exact keeps_pure _
  · split
    · exact keeps_pure _
    · refine Keeps.bind (keeps_minor place ?_) fun _ => keeps_pure _
      exact fun _ => rfl

theorem executeScript (place : Nat) (σ : Session) (x : Outline.Expression) :
    C.Keeps (e.executeScript place σ x) := by
  refine (compiled place σ _).bind fun c => ?_
  cases c with
  | error ps => exact keeps_pure _
  | ok p =>
    have hrun : C.Keeps (e.runScript (.folder place x.parent) σ.settings.maxCallDepth x.name
        p.body) :=
      keeps_of_rel (R := fun _ => Native.Alike .same) fun _ =>
        he.answers.runScript C.coupling.thorough.toScripting (.folder _ rfl) _ _ _
    refine hrun.outcome.bind fun r => ?_
    cases r with
    | error f => exact keeps_pure _
    | ok n =>
      refine keeps_get fun s => ?_
      split
      · exact from_pure _ s
      · exact ((keeps_freeze n).bind fun _ => keeps_pure _) s

/-- The rest of an execution, once it is counted. -/
theorem executeIn (place : Nat) (σ : Session) (x : Outline.Expression) :
    C.Keeps (match x.language with
      | .formula => e.executeFormula place σ x
      | .script => e.executeScript place σ x) := by
  split
  · exact he.executeFormula place σ x
  · exact he.executeScript place σ x

theorem evaluateOf (hx : C.Executes) (ht : e.Total) (place : Nat) (key : String) :
    C.Keeps (e.evaluate place key) := by
  intro s
  cases s.lookup place key with
  | absent hx =>
    intro s' hs'
    have hrun := e.evaluate_absent hx
    cases hs' with
    | value h => cases hrun.symm.trans h; exact C.refl s
    | failure h => cases hrun.symm.trans h
  | kept hx hr =>
    intro s' hs'
    have hrun := e.evaluate_kept hx hr
    cases hs' with
    | value h => cases hrun.symm.trans h; exact C.minor s place fun _ => rfl
    | failure h => cases hrun.symm.trans h
  | circular hσ hx hr hk =>
    intro s' hs'
    have hrun := e.evaluate_circular hσ hx hr hk
    cases hs' with
    | value h =>
      cases hrun.symm.trans h
      have hdetected : C.Goes s (s.detected place) := C.minor s place fun _ => rfl
      exact C.trans hdetected (C.unchanged rfl rfl)
    | failure h => cases hrun.symm.trans h
  | @new σ x hσ hx' hr hk =>
    have htotal : Run.Total (match x.language with
        | .formula => e.executeFormula place σ x
        | .script => e.executeScript place σ x) := by
      split
      · exact ht.executeFormula place σ x
      · exact Engine.Total.executeScript place σ x
    have hfrom := hx hσ hx' hr hk htotal (he.executeIn place σ x)
    have hrun := e.evaluate_new hσ hx' hr hk
    intro s' hs'
    cases hs' with
    | value h => exact hfrom s' (.value (hrun.symm.trans h))
    | failure h => exact hfrom s' (.failure (hrun.symm.trans h))

end Serves

theorem keeps_moduleSession (hl : C.Loads) {fuel : Nat} (he : C.Serves (.ofFuel fuel))
    (σ : Session) (specifier : String) :
    C.Keeps ((Engine.ofFuel fuel).moduleSession σ specifier) := by
  refine keeps_get fun s => ?_
  split
  · exact from_fail _ s
  · rename_i m hm
    obtain ⟨hm, halive⟩ := Option.filter_eq_some_iff.1 hm
    split
    · exact from_pure _ s
    · rename_i hloaded
      simp only
      split
      · exact From.bind (from_fail _ s) fun _ _ h => nomatch h
      · rename_i hloading
        have hloading : specifier ∉ m.loading := fun hmem =>
          hloading (List.contains_iff_mem.2 hmem)
        split
        · exact from_fail _ s
        · rename_i tree htree
          exact hl he hm halive hloaded hloading htree

theorem keeps_importValue (hl : C.Loads) {fuel : Nat} (he : C.Serves (.ofFuel fuel))
    (place : Nat) (folder : String) (arguments : List Value) :
    C.Keeps ((Engine.ofFuel fuel).importValue place folder arguments) := by
  unfold Engine.importValue
  split
  · refine Keeps.bind ?_ fun σ => ?_
    · refine keeps_get fun s => ?_
      split
      · exact from_pure _ s
      · exact from_fail _ s
    · split
      · exact (he.importRelative place σ folder _).bind fun v => keeps_ofFaulty _
      · exact (keeps_moduleSession hl he σ _).bind fun m => (he.folderValue m "").bind fun v =>
          keeps_ofFaulty _
  · exact keeps_fault _

/-- Whatever an engine is asked, it goes along. -/
theorem serves (hx : C.Executes) (hl : C.Loads) : ∀ fuel, C.Serves (.ofFuel fuel)
  | 0 =>
    have hzero (place : Nat) (key : String) :
        C.Keeps ((Engine.ofFuel 0).ask (.evaluate place key)) := by
      intro s s' h
      cases h with
      | value h => exact nomatch (h : EStateM.Result.error Stop.exhausted s = _)
      | failure h => exact nomatch (h : EStateM.Result.error Stop.exhausted s = _)
    ⟨Simulation.responds_zero, hzero⟩
  | fuel + 1 =>
    have he := serves hx hl fuel
    have ht := Engine.total_ofFuel fuel
    have enters : C.coupling.simulation.Enters (Engine.ofFuel fuel) (Engine.ofFuel fuel) :=
      { force := by
          intro w a b hab
          obtain rfl : a = b := hab
          exact Simulation.Rel.imp (S := C.coupling.simulation) ((he.force a).rel w)
            fun _ _ v _ h => h ▸ v.alike_self
        evaluate := by
          intro w a b key hab
          obtain rfl : a = b := hab
          exact Simulation.Rel.imp (S := C.coupling.simulation) ((he.evaluateOf hx ht a key).rel w)
            fun _ _ r _ h => h ▸ optional_refl Result.alike_self r
        folderValue := by
          intro w a b key hab
          obtain rfl : a = b := hab
          exact Simulation.Rel.imp (S := C.coupling.simulation) ((he.folderValueOf a key).rel w)
            fun _ _ v _ h => h ▸ v.alike_self
        importValue := by
          intro w a b vs ws folder hab hv
          obtain rfl : a = b := hab
          obtain rfl := Value.eq_of_forall hv
          exact Simulation.Rel.imp (S := C.coupling.simulation)
            ((keeps_importValue hl he a folder vs).rel w) fun _ _ v _ h => h ▸ v.alike_self }
    ⟨he.answers.next C.coupling.thorough enters (.inl rfl), he.evaluateOf hx ht⟩

/-! ## Queries -/

namespace Serves

variable {e : Engine} (he : C.Serves e)
include he

theorem query (hx : C.Executes) (ht : e.Total) (place : Nat) (q : Query) :
    C.Keeps (e.query place q) := by
  cases q with
  | expression path => exact he.evaluateOf hx ht place _
  | all =>
    refine keeps_get fun s => ?_
    split
    · refine (Keeps.bind (Keeps.bind (keeps_mapM (fun x => ?_) _) fun _ => keeps_pure _)
        fun _ => keeps_pure none) s
      exact (he.evaluate place x.key).bind fun _ => keeps_pure _
    · exact from_pure none s
  | folder path => exact (he.folderValueOf place _).bind fun _ => keeps_pure none
  | entry path key =>
    refine (he.folderValueOf place _).bind fun v => ?_
    split
    · rename_i es _
      have hread : C.Keeps (e.readKey? es key) :=
        keeps_of_rel (R := fun _ => Option.Rel (Value.Alike .same)) fun _ =>
          he.answers.readKey? (Slot.forall_self _) key
      exact hread.bind fun _ => keeps_pure none
    · exact keeps_pure none

end Serves

end Course
end Workbook
