/-
Two runs from one store.

A `Lasting` is a relation of an earlier and a later store that every step of an engine keeps,
once the executions and imports that have begun in between are over; `Store.Steady`, which says
what is in flight, is the first of them.  An `Accord` says how far two runs agree that start in
the same store: they end in the same store with the same value or failure, unless the first one
is exhausted and what the second one comes to is excused.  It may ask for more of the store that
a lasting relation preserves.
-/
import Workbook.Proofs.Custody
import Workbook.Proofs.Simulation.Session

open List (Forall₂)

namespace Workbook

/-! ## What is being executed -/

namespace Store

/-- What the sessions are executing, session by session. -/
def inFlight (s : Store) : List (List String) :=
  s.sessions.toList.map (·.inFlight)

/-- Every session executes what it executed before, and new sessions execute nothing. -/
def Steady (s s' : Store) : Prop :=
  ∃ n, s'.inFlight = s.inFlight ++ List.replicate n []

theorem Steady.refl (s : Store) : s.Steady s :=
  ⟨0, by simp⟩

theorem Steady.trans {s t u : Store} (h : s.Steady t) (h' : t.Steady u) : s.Steady u := by
  obtain ⟨m, hm⟩ := h
  obtain ⟨n, hn⟩ := h'
  exact ⟨m + n, by rw [hn, hm, List.append_assoc, List.replicate_append_replicate]⟩

theorem steady_of_sessions {s s' : Store} (h : s'.sessions = s.sessions) : s.Steady s' :=
  ⟨0, by simp [inFlight, h]⟩

theorem inFlight_changeSession (s : Store) (place : Nat) {f : Session → Session}
    {g : List String → List String} (h : ∀ σ, (f σ).inFlight = g σ.inFlight) :
    (s.changeSession place f).inFlight = s.inFlight.modify place g := by
  unfold inFlight changeSession
  rw [Array.toList_modify]
  apply List.ext_getElem?
  intro i
  simp only [List.getElem?_map, List.getElem?_modify]
  cases s.sessions.toList[i]? with
  | none => rfl
  | some σ =>
    simp only [Option.map_eq_map, Option.map_some]
    split
    · exact congrArg some (h σ)
    · rfl

theorem steady_changeInFlight (s : Store) (place : Nat) {f : Session → Session}
    (h : ∀ σ, (f σ).inFlight = σ.inFlight) : s.Steady (s.changeSession place f) := by
  refine ⟨0, ?_⟩
  rw [inFlight_changeSession s place (g := id) h, List.modify_id, List.replicate_zero,
    List.append_nil]

theorem steady_changeSession (s : Store) (place : Nat) {f : Session → Session}
    (h : Session.Grounded f) : s.Steady (s.changeSession place f) :=
  s.steady_changeInFlight place h.inFlight

theorem size_inFlight (s : Store) : s.inFlight.length = s.sessions.size := by
  simp [inFlight]

/-- Sessions stay where they are. -/
theorem Steady.size_le {s s' : Store} (h : s.Steady s') : s.sessions.size ≤ s'.sessions.size := by
  obtain ⟨n, hn⟩ := h
  have hlength := congrArg List.length hn
  simp only [size_inFlight, List.length_append] at hlength
  omega

theorem steady_addSession (s : Store) {σ : Session} (h : σ.inFlight = []) :
    s.Steady (s.addSession σ) :=
  ⟨1, by simp [inFlight, addSession, h]⟩

/-- What is being executed once more things were begun and ended. -/
theorem Steady.executing {s s' : Store} {place : Nat} {key : String} {f g : Session → Session}
    (hf : ∀ σ, (f σ).inFlight = key :: σ.inFlight)
    (hg : ∀ σ, (g σ).inFlight = σ.inFlight.erase key)
    (h : (s.changeSession place f).Steady s') : s.Steady (s'.changeSession place g) := by
  obtain ⟨n, hn⟩ := h
  refine ⟨n, ?_⟩
  rw [inFlight_changeSession s' place (g := (·.erase key)) hg, hn,
    inFlight_changeSession s place (g := (key :: ·)) hf]
  apply List.ext_getElem?
  intro i
  simp only [List.getElem?_modify, List.getElem?_append, List.length_modify]
  by_cases hi : i < s.inFlight.length
  · simp only [if_pos hi, List.getElem?_eq_getElem hi]
    split <;> simp
  · simp only [if_neg hi, List.getElem?_replicate]
    split
    · split <;> simp
    · simp

end Store

/-! ## What lasts -/

namespace Accord

/-- The store in which an execution goes on. -/
def begun (s : Store) (place : Nat) (key : String) : Store :=
  s.changeSession place fun σ => { σ with inFlight := key :: σ.inFlight }

/-- The store in which the result of an execution is kept. -/
def finished (s : Store) (place : Nat) (key : String) (r : Result) : Store :=
  s.changeSession place fun σ =>
    { σ with inFlight := σ.inFlight.erase key, results := (key, r) :: σ.results }

/-- The store with an identity given out. -/
def numbered (s : Store) : Store :=
  { s with fresh := s.fresh + 1 }

end Accord

/-- A relation of an earlier and a later store that everything an engine does keeps. -/
structure Lasting where
  Kept : Store → Store → Prop
  refl : ∀ s, Kept s s
  trans : ∀ {s t u}, Kept s t → Kept t u → Kept s u
  size : ∀ {s s'}, Kept s s' → s.sessions.size ≤ s'.sessions.size
  unchanged : ∀ {s s'}, s'.sessions = s.sessions → s'.modules = s.modules → s.fresh ≤ s'.fresh →
    Kept s s'
  changeSession : ∀ s place {f}, Session.Grounded f → Kept s (s.changeSession place f)
  insertScript : ∀ s place {source p}, Script.compile source = .ok p →
    Kept s (s.changeSession place fun σ => { σ with scripts := σ.scripts.insert source.text p })
  addSession : ∀ s {σ}, σ.inFlight = [] → σ.scripts = .empty σ.settings.cacheCapacity →
    Kept s (s.addSession σ)
  /-- A session is let go of that was not there before. -/
  release : ∀ {w s place}, Kept w s → w.sessions.size ≤ place →
    Kept w (s.changeSession place fun σ => { σ with alive := false })
  /-- A module is loaded whose session was not there before. -/
  keepModule : ∀ {w s place n} (specifier : String), Kept w s → w.sessions.size ≤ n →
    Kept w (s.changeModules place fun m => { m with loaded := Keyed.put specifier n m.loaded })
  executing : ∀ {s s' place key} (r : Result), Kept (Accord.begun s place key) s' →
    Kept s (Accord.finished s' place key r)
  loading : ∀ {s s' place specifier},
    Kept (s.changeModules place fun m => { m with loading := specifier :: m.loading }) s' →
      Kept s (s'.changeModules place fun m => { m with loading := m.loading.erase specifier })

/-- What is in flight lasts. -/
def Store.steady : Lasting where
  Kept := Steady
  refl := .refl
  trans := .trans
  size := Steady.size_le
  unchanged h _ _ := steady_of_sessions h
  changeSession s place _ h := s.steady_changeSession place h
  insertScript s place _ _ _ := s.steady_changeInFlight place fun _ => rfl
  addSession s _ h _ := s.steady_addSession h
  release h _ := h.trans (Store.steady_changeInFlight _ _ fun _ => rfl)
  keepModule _ h _ := h.trans (steady_of_sessions rfl)
  executing _ h := h.executing (fun _ => rfl) fun _ => rfl
  loading h := h

/-! ## Sameness -/

theorem Work.eq_of_alike {x y : Work} : Work.Alike .same x y → x = y
  | .value h => congrArg Work.value (Value.eq_of_alike h)
  | .expression key h => congrArg (Work.expression · key) h
  | .folder key h => congrArg (Work.folder · key) h

theorem Work.alike_self : ∀ x : Work, Work.Alike .same x x
  | .value v => .value v.alike_self
  | .expression _ key => .expression key rfl
  | .folder _ key => .folder key rfl

theorem Thunk.alike_self : ∀ x : Thunk, Thunk.Alike .same x x
  | .pending work => .pending work.alike_self
  | .done v => .done v.alike_self

/-- Everything tied to itself. -/
def Ties.same : Ties :=
  ⟨Eq, Eq, Eq, Eq⟩

theorem Keyed.forall_self {α : Type} {R : α → α → Prop} (h : ∀ a, R a a)
    (es : List (String × α)) : Forall₂ (Keyed.Alike R) es es :=
  List.forall₂_same.2 fun e _ => .mk e.1 (h e.2)

theorem Session.tied_self (σ : Session) : σ.Tied .same .same σ :=
  { σ.alike_self with
    alive := rfl
    tree := rfl
    outline := rfl
    settings := rfl
    results := Keyed.forall_self Result.alike_self _
    inFlight := rfl
    folderValues := Value.locals_self _
    imports := Value.locals_self _
    scripts := rfl
    modules := rfl
    stats := rfl }

theorem Session.eq_of_tied {σ σ' : Session} (h : σ.Tied .same .same σ') : σ = σ' := by
  have hvalues {es es' : List (String × Value)}
      (h : Forall₂ (Keyed.Alike (Value.Alike .same)) es es') : es = es' :=
    Keyed.eq_of_forall (fun _ _ => Value.eq_of_alike) h
  cases σ
  cases σ'
  rw [Session.mk.injEq]
  exact ⟨h.alive, h.tree, h.outline, h.settings, hvalues h.overrides,
    Value.eq_of_alike h.library, Value.eq_of_alike h.math, h.time,
    Keyed.eq_of_forall (fun _ _ => Result.eq_of_alike) h.results, h.inFlight,
    hvalues h.folderValues, hvalues h.imports, h.scripts, h.modules, h.stats⟩

theorem Modules.alike_self (m : Modules) : m.Alike .same m :=
  ⟨rfl, rfl, Keyed.forall_self (fun _ => rfl) _, rfl⟩

theorem Modules.eq_of_alike {m m' : Modules} (h : m.Alike .same m') : m = m' := by
  cases m
  cases m'
  rw [Modules.mk.injEq]
  exact ⟨h.alive, h.registry, Keyed.eq_of_forall (fun _ _ h => h) h.loaded, h.loading⟩

theorem Store.tied_self (s : Store) : s.Tied .same .same s where
  thunks := by
    rintro a _ rfl
    exact optional_refl Thunk.alike_self _
  sessions := by
    rintro a _ rfl
    exact optional_refl Session.tied_self _
  modules := by
    rintro a _ rfl
    exact optional_refl Modules.alike_self _

/-! ## Accords -/

theorem Excuse.nothing_exact : Excuse.nothing.values → ¬ True :=
  False.elim

/-- How far two runs from one store agree. -/
structure Accord where
  lasting : Lasting
  /-- What holds of the store. -/
  Inv : Store → Prop
  keeps : ∀ {s s'}, Inv s → lasting.Kept s s' → Inv s'
  /-- What the second run may come to where the first one is exhausted. -/
  excuse : Excuse
  /-- Whether both are exhausted in the same store, if they are. -/
  exact : Prop
  not_exact : excuse.values → ¬ exact

namespace Accord

/-- A world is the store in which the runs start. -/
def coupling (A : Accord) : Coupling :=
  { Coupling.ofInvariant (@Eq Store) (fun _ => rfl) (fun h h' => h.trans h')
      (fun w s => A.lasting.Kept w s ∧ A.Inv w)
      (fun hi ho => ⟨A.lasting.trans hi.1 (A.lasting.unchanged ho.sessions ho.modules ho.fresh), hi.2⟩) with
    left := A.excuse
    right := .nothing
    Stuck := fun s t => A.exact → s = t
    stuck := fun hi _ => hi.1
    stuck_of_values := by
      rintro (h | h) s t he
      · exact absurd he (A.not_exact h)
      · exact h.elim
    stuck_countCalls := by
      rintro w s t a _ f rfl h he
      rw [h he]
    stuck_countScriptCalls := by
      rintro w s t a _ f rfl h he
      rw [h he] }

variable {A : Accord} {w : Store} {α : Type} {R : Store → α → α → Prop}

/-- Two runs agree. -/
abbrev Rel (A : Accord) (w : Store) {α : Type} (x y : Run α) (R : Store → α → α → Prop) : Prop :=
  A.coupling.Rel w x y R

/-- A change of the store, after which what lasts has been kept since the runs began. -/
theorem rel_change {f : Store → α × Store}
    (h : ∀ s, A.lasting.Kept w s → A.lasting.Kept w (f s).2 ∧ R w (f s).1 (f s).1) :
    A.Rel w (modifyGet f) (modifyGet f) R := by
  refine ⟨?_⟩
  rintro s _ ⟨rfl, hs, hi⟩
  obtain ⟨hf, hR⟩ := h s hs
  exact ⟨w, rfl, ⟨rfl, hf, hi⟩, hR⟩

/-- A change of the store that keeps what lasts. -/
theorem rel_modifyGet {f : Store → α × Store}
    (h : ∀ s, A.lasting.Kept s (f s).2 ∧ R w (f s).1 (f s).1) :
    A.Rel w (modifyGet f) (modifyGet f) R :=
  rel_change fun s hs => ⟨A.lasting.trans hs (h s).1, (h s).2⟩

theorem rel_modify {f : Store → Store} (h : ∀ s : Store, A.lasting.Kept s (f s)) :
    A.Rel w (modify f : Run PUnit) (modify f) fun _ _ _ => True :=
  rel_modifyGet fun s => ⟨h s, trivial⟩

theorem rel_compiled (place : Nat) (σ : Session) (source : Source) :
    A.Rel w (Engine.compiled place σ source) (Engine.compiled place σ source) fun _ x y => x = y := by
  have hpure {x : Except Problems Script.Program} :
      A.Rel w (pure x) (pure x) fun _ x y => x = y := Coupling.rel_pure rfl
  unfold Engine.compiled
  split
  · exact hpure
  · split
    · exact hpure
    · rename_i p hp
      exact Coupling.rel_bind (rel_modify fun (s : Store) => A.lasting.insertScript s place hp)
        fun _ _ _ _ _ => Coupling.rel_pure rfl

/-- The simulation of an accord. -/
def simulation (A : Accord) : SessionSimulation where
  toSimulation := A.coupling.simulation
  ties _ := .same
  ties_within _ := .refl _
  born w a b := a = b ∧ Array.size (Store.sessions w) ≤ a
  born_mono := by
    rintro w _ a b rfl h
    exact h
  born_sessions h := h.1
  settings := by
    rintro w o _ rfl
    exact ⟨rfl, rfl⟩
  empty := by
    rintro w o _ rfl
    rfl
  unused := rfl
  count f h := congrArg f h
  look h := by
    refine ⟨?_⟩
    rintro s _ ⟨rfl, hs⟩
    exact (h s s s.tied_self).ends s s ⟨rfl, hs⟩
  newThunk := by
    intro w x y h
    obtain rfl := Work.eq_of_alike h
    exact rel_modifyGet fun s => ⟨A.lasting.unchanged rfl rfl (Nat.le_refl _), .lazy rfl⟩
  settle := by
    rintro w a _ v v' rfl h
    obtain rfl := Value.eq_of_alike h
    exact rel_modify fun s => A.lasting.unchanged rfl rfl (Nat.le_refl _)
  changeSession := by
    rintro w a _ f g rfl h hf hg
    obtain rfl : f = g := funext fun σ => Session.eq_of_tied (h σ σ σ.tied_self)
    exact rel_modify fun s => A.lasting.changeSession s a hf
  addSession := by
    intro w σ σ' h hσ hc
    obtain rfl := Session.eq_of_tied h
    refine rel_change fun s hs => ⟨A.lasting.trans hs (A.lasting.addSession s hσ hc), rfl, ?_⟩
    exact A.lasting.size hs
  release := by
    rintro w a _ ⟨rfl, ha⟩
    exact rel_change fun s hs => ⟨A.lasting.release hs ha, trivial⟩
  keepModule := by
    rintro w a _ c _ specifier rfl ⟨rfl, hc⟩
    exact rel_change fun s hs => ⟨A.lasting.keepModule specifier hs hc, trivial⟩
  compiled := by
    rintro w a _ σ σ' source rfl h
    obtain rfl := Session.eq_of_tied h
    exact rel_compiled a σ source

/-- Failures are caught in both runs or in neither unless a failure is excused where a value
is not. -/
theorem catches (h : ∀ f, A.excuse.failures f → A.excuse.values) : A.simulation.Catches :=
  fun hx => Coupling.rel_outcome h (fun _ hf => hf) hx

/-! ## Engines -/

theorem imp {x y : Run α} {R' : Store → α → α → Prop} (h : A.Rel w x y R)
    (hR : ∀ w a b, R w a b → R' w a b) : A.Rel w x y R' :=
  Simulation.Rel.imp (S := A.coupling.simulation) h fun w' _ => hR w'

/-- Two engines that agree on every request. -/
def Agree (A : Accord) (e₁ e₂ : Engine) : Prop :=
  ∀ (w : Store) {α : Type} (r : Request α), A.Rel w (e₁.ask r) (e₂.ask r) fun _ => Eq

theorem Agree.responds {e₁ e₂ : Engine} (h : A.Agree e₁ e₂) : A.simulation.Responds e₁ e₂ :=
  Simulation.responds_of_agree (S := A.coupling.simulation) (fun _ => rfl) h

/-- Alike things are the same, so engines that agree answer alike requests alike. -/
theorem Agree.serves {e₁ e₂ : Engine} (h : A.Agree e₁ e₂) : A.simulation.Serves e₁ e₂ :=
  SessionSimulation.serves_of_responds A.coupling.thorough h.responds fun {w a b} key hab => by
    obtain rfl : a = b := hab
    exact imp (h w (.evaluate a key)) fun _ r _ hr => hr ▸ optional_refl Result.alike_self r

/-- Engines that answer alike agree on every request. -/
theorem agree {e₁ e₂ : Engine} (he : A.simulation.Responds e₁ e₂)
    (evaluate : ∀ w place key, A.Rel w (e₁.ask (.evaluate place key)) (e₂.ask (.evaluate place key))
      fun _ => Option.Rel (Result.Alike .same)) : A.Agree e₁ e₂ := by
  intro w α r
  refine he.agree (S := A.coupling.simulation) (fun _ => rfl) (fun w' place key => ?_) w r
  exact imp (evaluate w' place key) fun _ _ _ => optional_eq fun _ _ => Result.eq_of_alike

/-! ## Executing -/

theorem executing_run (place : Nat) (key : String) (x : Run Outcome) (s : Store) :
    Run.executing place key x s = match x (begun s place key) with
      | .ok o s' => .ok (some ⟨s'.fresh, o⟩) (finished (numbered s') place key ⟨s'.fresh, o⟩)
      | .error e s' => .error e s' := by
  show EStateM.bind x _ (begun s place key) = _
  unfold EStateM.bind
  cases x (begun s place key) <;> rfl

/-- What lasts through an execution has been kept once its result is. -/
theorem kept_finished {L : Lasting} {s s' : Store} {place : Nat} {key : String}
    (h : L.Kept (begun s place key) s') (r : Result) :
    L.Kept s (finished (numbered s') place key r) :=
  L.executing r (L.trans h (L.unchanged rfl rfl (Nat.le_succ _) : L.Kept s' (numbered s')))

/-- Two executions that agree while something more is in flight agree.  In the meantime
something else may hold of the store. -/
theorem executing_ends {A B : Accord} (hlasting : B.lasting = A.lasting)
    (hexcuse : B.excuse = A.excuse) (hexact : B.exact = A.exact)
    {w s : Store} {place : Nat} {key : String} {x y : Run Outcome} (hw : A.lasting.Kept w s)
    (hi : A.Inv w) (enter : B.Inv (begun s place key))
    (hxy : ∀ w', B.Rel w' x y fun _ => Outcome.Alike .same) (total : y.Total) :
    A.coupling.Ends w (fun _ => Option.Rel (Result.Alike .same)) (Run.executing place key x s)
      (Run.executing place key y s) := by
  have hends := (hxy (begun s place key)).ends _ _ ⟨rfl, B.lasting.refl _, enter⟩
  have hy := total.ends (begun s place key)
  rw [executing_run, executing_run]
  generalize x (begun s place key) = r at hends ⊢
  generalize y (begun s place key) = r' at hends hy ⊢
  match r, r', hends with
  | .ok o s₁, .ok o' s₂, h =>
    obtain ⟨_, rfl, ⟨rfl, hs, -⟩, ho⟩ := h
    obtain rfl := Outcome.eq_of_alike ho
    have hkept := A.lasting.trans hw (kept_finished (hlasting ▸ hs) ⟨s₁.fresh, o⟩)
    exact ⟨w, rfl, ⟨rfl, hkept, hi⟩, .some (Result.alike_self _)⟩
  | .error (.failed f) s₁, .error (.failed g) s₂, _ => exact absurd rfl (hy g s₂)
  | .error .exhausted s₁, .error .exhausted s₂, h => exact fun he => h (hexact ▸ he)
  | .error .exhausted s₁, .ok o s₂, h => exact (hexcuse ▸ h : A.excuse.values)
  | .error .exhausted s₁, .error (.failed g) s₂, _ => exact absurd rfl (hy g s₂)
  | .ok o s₁, .error .exhausted s₂, h => exact h
  | .error (.failed f) s₁, .error .exhausted s₂, h => exact h

theorem executes (h : ∀ (s : Store) (place : Nat) (key : String), A.Inv s → A.Inv (begun s place key)) :
    A.simulation.Executes := by
  rintro w a _ x y key rfl total hxy
  refine ⟨?_⟩
  rintro s _ ⟨rfl, hw, hi⟩
  exact executing_ends rfl rfl rfl hw hi (h s a key (A.keeps hi hw))
    (fun w' => hxy w' (.refl _) (.refl _)) total

/-! ## Loading -/

/-- The store in which a module is being computed. -/
def entered (s : Store) (place : Nat) (specifier : String) : Store :=
  s.changeModules place fun m => { m with loading := specifier :: m.loading }

/-- The store in which it has been. -/
def left (s : Store) (place : Nat) (specifier : String) : Store :=
  s.changeModules place fun m => { m with loading := m.loading.erase specifier }

theorem loading_run (place : Nat) (specifier : String) (x : Run Value) (s : Store) :
    Run.loading place specifier x s = match x (entered s place specifier) with
      | .ok v s' => .ok v (left s' place specifier)
      | .error e s' => .error e s' := by
  show EStateM.bind x _ (entered s place specifier) = _
  unfold EStateM.bind
  cases x (entered s place specifier) <;> rfl

theorem loads (h : ∀ (s : Store) (place : Nat) (specifier : String),
    A.Inv s → A.Inv (entered s place specifier)) : A.simulation.Loads := by
  rintro w a _ x y specifier rfl total hxy
  refine ⟨?_⟩
  rintro s _ ⟨rfl, hw, hi⟩
  have hends := (hxy (entered s a specifier) (.refl _)).ends _ _
    ⟨rfl, A.lasting.refl _, h s a specifier (A.keeps hi hw)⟩
  have hy := total.ends (entered s a specifier)
  rw [loading_run, loading_run]
  generalize x (entered s a specifier) = r at hends ⊢
  generalize y (entered s a specifier) = r' at hends hy ⊢
  match r, r', hends with
  | .ok v s₁, .ok v' s₂, h =>
    obtain ⟨_, rfl, ⟨rfl, hs, -⟩, hv⟩ := h
    exact ⟨w, rfl, ⟨rfl, A.lasting.trans hw (A.lasting.loading hs), hi⟩, hv⟩
  | .error (.failed f) s₁, .error (.failed g) s₂, _ => exact absurd rfl (hy g s₂)
  | .error .exhausted s₁, .error .exhausted s₂, h => exact h
  | .error .exhausted s₁, .ok o s₂, h => exact h
  | .error .exhausted s₁, .error (.failed g) s₂, _ => exact absurd rfl (hy g s₂)
  | .ok o s₁, .error .exhausted s₂, h => exact h
  | .error (.failed f) s₁, .error .exhausted s₂, h => exact h

/-! ## Every engine -/

/-- Nothing is asked of the store, and both runs come to the very same. -/
def free (L : Lasting) : Accord where
  lasting := L
  Inv _ := True
  keeps _ _ := trivial
  excuse := .nothing
  exact := True
  not_exact := Excuse.nothing_exact

/-- Where runs agree in everything, their ends are the same. -/
theorem eq_of_ends (nothing : A.excuse = .nothing) (exact : A.exact) {s : Store}
    {r r' : EStateM.Result Stop Store α} (h : A.coupling.Ends s (fun _ => Eq) r r') :
    r = r' ∧ (∀ a s', r' = .ok a s' → A.lasting.Kept s s') ∧
      ∀ f s', r' = .error (.failed f) s' → A.lasting.Kept s s' := by
  match r, r', h with
  | .ok a s₁, .ok b s₂, h =>
    obtain ⟨_, rfl, ⟨rfl, hs, -⟩, rfl⟩ := h
    refine ⟨rfl, fun _ _ h => ?_, fun _ _ h => nomatch h⟩
    cases h
    exact hs
  | .error (.failed f) s₁, .error (.failed g) s₂, h =>
    obtain ⟨rfl, _, rfl, rfl, hs, -⟩ := h
    refine ⟨rfl, (fun _ _ h => nomatch h), fun _ _ h => ?_⟩
    cases h
    exact hs
  | .error .exhausted s₁, .error .exhausted s₂, h =>
    obtain rfl : s₁ = s₂ := h exact
    exact ⟨rfl, (fun _ _ h => nomatch h), fun _ _ h => nomatch h⟩
  | .error .exhausted s₁, .ok b s₂, h =>
    have h : A.excuse.values := h
    rw [nothing] at h
    exact h.elim
  | .error .exhausted s₁, .error (.failed g) s₂, h =>
    have h : A.excuse.failures g := h
    rw [nothing] at h
    exact h.elim
  | .ok a s₁, .error .exhausted s₂, h => exact h.elim
  | .error (.failed f) s₁, .error .exhausted s₂, h => exact h.elim

theorem free_catches (L : Lasting) : (free L).simulation.Catches :=
  catches fun _ h => h

theorem free_executes (L : Lasting) : (free L).simulation.Executes :=
  executes fun _ _ _ _ => trivial

theorem free_loads (L : Lasting) : (free L).simulation.Loads :=
  loads fun _ _ _ _ => trivial

theorem free_agree (L : Lasting) (fuel : Nat) :
    (free L).Agree (Engine.ofFuel fuel) (Engine.ofFuel fuel) := by
  have ⟨he, hs⟩ := SessionSimulation.responds (free L).coupling.thorough (free_catches L)
    (free_executes L) (free_loads L) (m := fuel) (n := fuel) (.inl rfl)
  refine agree he ?_
  rintro w place key
  exact hs.evaluate key rfl

end Accord

namespace Lasting

variable {L : Lasting} {α : Type}

/-- A run that keeps what lasts, however it ends. -/
def Keeps (L : Lasting) (x : Run α) : Prop :=
  ∀ w, (Accord.free L).Rel w x x fun _ => Eq

theorem Keeps.ends {x : Run α} (h : L.Keeps x) {s s' : Store} (hx : x.EndsIn s s') :
    L.Kept s s' := by
  have hends := (h s).ends s s ⟨rfl, L.refl s, trivial⟩
  obtain ⟨-, hvalue, hfailure⟩ := Accord.eq_of_ends rfl trivial hends
  cases hx with
  | value h => exact hvalue _ _ h
  | failure h => exact hfailure _ _ h

variable {β : Type}

theorem Keeps.bind {x : Run α} {k : α → Run β} (h : L.Keeps x) (hk : ∀ a, L.Keeps (k a)) :
    L.Keeps (x >>= k) :=
  fun w => Coupling.rel_bind (h w) fun w' _ a _ hab => hab ▸ hk a w'

theorem keeps_pure (a : α) : L.Keeps (pure a : Run α) :=
  fun _ => Coupling.rel_pure rfl

theorem keeps_fault (f : Fault) : L.Keeps (Run.fault f : Run α) :=
  fun _ => Coupling.rel_fail _

theorem keeps_ofFaulty : ∀ x : Except Fault α, L.Keeps (Run.ofFaulty x)
  | .ok a => keeps_pure a
  | .error f => keeps_fault f

theorem keeps_get {k : Store → Run α} (h : ∀ s, L.Keeps (k s)) : L.Keeps (get >>= k) := by
  refine fun w => ⟨?_⟩
  rintro s _ ⟨rfl, hs⟩
  exact (h s w).ends s s ⟨rfl, hs⟩

theorem keeps_modifyGet {f : Store → α × Store} (h : ∀ s : Store, L.Kept s (f s).2) :
    L.Keeps (modifyGet f : Run α) :=
  fun _ => Accord.rel_modifyGet fun s => ⟨h s, rfl⟩

theorem keeps_changeSession (place : Nat) {f : Session → Session} (h : Session.Grounded f) :
    L.Keeps (Run.changeSession place f) :=
  keeps_modifyGet fun s => L.changeSession s place h

end Lasting

/-- Whatever an engine is asked, what lasts is kept. -/
theorem Engine.keeps_ofFuel (L : Lasting) (fuel : Nat) {α : Type} (r : Request α) :
    L.Keeps ((Engine.ofFuel fuel).ask r) :=
  fun w => Accord.free_agree L fuel w r

/-- A run after which everything is in flight that was, and nothing else, however it ends. -/
abbrev Run.Steady {α : Type} (x : Run α) : Prop :=
  Store.steady.Keeps x

theorem Run.Steady.ends {α : Type} {x : Run α} (h : x.Steady) {s s' : Store}
    (hx : x.EndsIn s s') : s.Steady s' :=
  Lasting.Keeps.ends h hx

/-- Whatever an engine is asked, afterwards everything is in flight that was, and nothing
else. -/
theorem Engine.steady_ofFuel (fuel : Nat) {α : Type} (r : Request α) :
    ((Engine.ofFuel fuel).ask r).Steady :=
  keeps_ofFuel Store.steady fuel r

end Workbook
