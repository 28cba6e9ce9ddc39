/-
Sessions that correspond.

The parts of an engine that lead into sessions read and change more of the store than
formulas and scripts do: lazy entries, modules, and sessions with what they have computed.
A `SessionSimulation` has a rule for each of these things.  From the rules, forcing,
computing folders, importing and executing correspond, and from a rule for what is in flight,
so does evaluating; `responds` is the recursion over how deep requests nest.
-/
import Workbook.Proofs.Session.Total
import Workbook.Proofs.Simulation.Engine

open List (Forall₂)

namespace Workbook

/-! ## What sessions keep -/

/-- Two computations that are put off. -/
inductive Work.Alike (p : Pairing) : Work → Work → Prop
  | value {v v' : Value} (h : Value.Alike p v v') : Work.Alike p (.value v) (.value v')
  | expression (key : String) {a b : Nat} (h : p.sessions a b) :
      Work.Alike p (.expression a key) (.expression b key)
  | folder (key : String) {a b : Nat} (h : p.sessions a b) :
      Work.Alike p (.folder a key) (.folder b key)

/-- Two lazy values, both read or neither. -/
inductive Thunk.Alike (p : Pairing) : Thunk → Thunk → Prop
  | pending {x y : Work} (h : Work.Alike p x y) : Thunk.Alike p (.pending x) (.pending y)
  | done {v v' : Value} (h : Value.Alike p v v') : Thunk.Alike p (.done v) (.done v')

/-- How the parts of sessions correspond that values do not refer to. -/
structure Ties where
  settings : Settings → Settings → Prop
  modules : Nat → Nat → Prop
  caches : Script.Cache → Script.Cache → Prop
  stats : Stats → Stats → Prop

/-- Whether every tie is one of other ties. -/
structure Ties.Within (T U : Ties) : Prop where
  settings : ∀ {o o'}, T.settings o o' → U.settings o o'
  modules : ∀ {a b}, T.modules a b → U.modules a b
  caches : ∀ {c c'}, T.caches c c' → U.caches c c'
  stats : ∀ {c c'}, T.stats c c' → U.stats c c'

theorem Ties.Within.refl (T : Ties) : T.Within T :=
  ⟨id, id, id, id⟩

/-- Two settings that differ at most in how many compiled scripts are kept. -/
structure Settings.Alike (o o' : Settings) : Prop where
  timeVariable : o.timeVariable = o'.timeVariable
  maxCallDepth : o.maxCallDepth = o'.maxCallDepth

/-- Two sessions that correspond in everything. -/
structure Session.Tied (p : Pairing) (T : Ties) (σ σ' : Session) : Prop
    extends Session.Alike p σ σ' where
  alive : σ.alive = σ'.alive
  tree : σ.tree = σ'.tree
  outline : σ.outline = σ'.outline
  settings : T.settings σ.settings σ'.settings
  results : Forall₂ (Keyed.Alike (Result.Alike p)) σ.results σ'.results
  inFlight : σ.inFlight = σ'.inFlight
  folderValues : Forall₂ (Keyed.Alike (Value.Alike p)) σ.folderValues σ'.folderValues
  imports : Forall₂ (Keyed.Alike (Value.Alike p)) σ.imports σ'.imports
  scripts : T.caches σ.scripts σ'.scripts
  modules : T.modules σ.modules σ'.modules
  stats : T.stats σ.stats σ'.stats

theorem Session.Tied.mono {p q : Pairing} {T U : Ties} (h : p.Within q) (hT : T.Within U)
    {σ σ' : Session} (hσ : σ.Tied p T σ') : σ.Tied q U σ' :=
  { hσ with
    toAlike := hσ.toAlike.mono h
    settings := hT.settings hσ.settings
    results := hσ.results.imp (Keyed.Alike.imp fun _ _ hr => hr.mono h)
    folderValues := Value.locals_mono hσ.folderValues h
    imports := Value.locals_mono hσ.imports h
    scripts := hT.caches hσ.scripts
    modules := hT.modules hσ.modules
    stats := hT.stats hσ.stats }

/-- Two collections of modules, the same ones of which are loaded. -/
structure Modules.Alike (p : Pairing) (m m' : Modules) : Prop where
  alive : m.alive = m'.alive
  registry : m.registry = m'.registry
  loaded : Forall₂ (Keyed.Alike p.sessions) m.loaded m'.loaded
  loading : m.loading = m'.loading

/-- What the parts that lead into sessions see of two stores. -/
structure Store.Tied (p : Pairing) (T : Ties) (s t : Store) : Prop where
  thunks : ∀ {a b : Nat}, p.thunks a b → Option.Rel (Thunk.Alike p) s.thunks[a]? t.thunks[b]?
  sessions : ∀ {a b : Nat}, p.sessions a b →
    Option.Rel (Session.Tied p T) s.sessions[a]? t.sessions[b]?
  modules : ∀ {a b : Nat}, T.modules a b →
    Option.Rel (Modules.Alike p) s.modules[a]? t.modules[b]?

namespace Run

/-- Fills a lazy entry. -/
def settle (thunk : Nat) (v : Value) : Run Unit :=
  modify fun s => { s with thunks := s.thunks.set! thunk (.done v) }

/-- Starts a session. -/
def addSession (σ : Session) : Run Nat :=
  modifyGet fun s => (s.sessions.size, { s with sessions := s.sessions.push σ })

end Run

/-- Executes an expression: it is in flight until its result is kept. -/
def Run.executing (place : Nat) (key : String) (x : Run Outcome) : Run (Option Result) := do
  changeSession place fun s => { s with inFlight := key :: s.inFlight }
  let r ← newResult (← x)
  changeSession place fun s =>
    { s with inFlight := s.inFlight.erase key, results := (key, r) :: s.results }
  return some r

/-- Computes a module: it is being loaded until its value is there. -/
def Run.loading (place : Nat) (specifier : String) (x : Run Value) : Run Value := do
  changeModules place fun m => { m with loading := specifier :: m.loading }
  let v ← x
  changeModules place fun m => { m with loading := m.loading.erase specifier }
  return v

/-- A session without anything that it has computed or counted. -/
def Session.bare (σ : Session) : Session :=
  { σ with results := [], folderValues := [], imports := [], stats := ⟨0, 0, 0⟩ }

/-- A change of what a session has computed or counted, and of nothing else. -/
def Session.Grounded (f : Session → Session) : Prop :=
  ∀ σ, (f σ).bare = σ.bare

theorem Session.Grounded.inFlight {f : Session → Session} (h : Grounded f) (σ : Session) :
    (f σ).inFlight = σ.inFlight :=
  show (f σ).bare.inFlight = σ.bare.inFlight from congrArg _ (h σ)

/-! ## Simulations of sessions -/

/-- A simulation with rules for what sessions do to the store. -/
structure SessionSimulation extends Simulation where
  ties : World → Ties
  ties_within : ∀ {w w'}, le w w' → (ties w).Within (ties w')
  /-- The sessions that were started by the runs. -/
  born : World → Nat → Nat → Prop
  born_mono : ∀ {w w' a b}, le w w' → born w a b → born w' a b
  born_sessions : ∀ {w a b}, born w a b → (pairing w).sessions a b
  settings : ∀ {w o o'}, (ties w).settings o o' → o.Alike o'
  empty : ∀ {w o o'}, (ties w).settings o o' →
    (ties w).caches (.empty o.cacheCapacity) (.empty o'.cacheCapacity)
  unused : ∀ {w}, (ties w).stats ⟨0, 0, 0⟩ ⟨0, 0, 0⟩
  count : ∀ {w c c'} (f : Stats → Stats), (ties w).stats c c' → (ties w).stats (f c) (f c')
  look : ∀ {w} {α : Type} {R : World → α → α → Prop} {k l : Store → Run α},
    (∀ s t, Store.Tied (pairing w) (ties w) s t → Rel w (k s) (l t) R) →
    Rel w (MonadState.get >>= k) (MonadState.get >>= l) R
  newThunk : ∀ {w x y}, Work.Alike (pairing w) x y →
    Rel w (Run.newThunk x) (Run.newThunk y) fun w => Slot.Alike (pairing w)
  settle : ∀ {w a b v v'}, (pairing w).thunks a b → Value.Alike (pairing w) v v' →
    Rel w (Run.settle a v) (Run.settle b v') fun _ _ _ => True
  changeSession : ∀ {w a b} {f g : Session → Session}, (pairing w).sessions a b →
    (∀ σ σ', Session.Tied (pairing w) (ties w) σ σ' →
      Session.Tied (pairing w) (ties w) (f σ) (g σ')) →
    Session.Grounded f → Session.Grounded g →
    Rel w (Run.changeSession a f) (Run.changeSession b g) fun _ _ _ => True
  addSession : ∀ {w σ σ'}, Session.Tied (pairing w) (ties w) σ σ' → σ.inFlight = [] →
    σ.scripts = .empty σ.settings.cacheCapacity → Rel w (Run.addSession σ) (Run.addSession σ') born
  release : ∀ {w a b}, born w a b → Rel w (Run.release a) (Run.release b) fun _ _ _ => True
  keepModule : ∀ {w a b c d} (specifier : String), (ties w).modules a b → born w c d →
    Rel w (Run.changeModules a fun m => { m with loaded := Keyed.put specifier c m.loaded })
      (Run.changeModules b fun m => { m with loaded := Keyed.put specifier d m.loaded })
      fun _ _ _ => True
  compiled : ∀ {w a b σ σ'} (source : Source), (pairing w).sessions a b →
    Session.Tied (pairing w) (ties w) σ σ' →
    Rel w (Engine.compiled a σ source) (Engine.compiled b σ' source) fun _ x y => x = y

namespace SessionSimulation

variable {S : SessionSimulation} {e₁ e₂ : Engine} {w : S.World}

/-- Sessions that correspond in everything. -/
abbrev session (S : SessionSimulation) (w : S.World) : Session → Session → Prop :=
  Session.Tied (S.pairing w) (S.ties w)

/-- Results that are alike. -/
abbrev result (S : SessionSimulation) (w : S.World) : Result → Result → Prop :=
  Result.Alike (S.pairing w)

/-- Outcomes that are alike. -/
abbrev outcome (S : SessionSimulation) (w : S.World) : Outcome → Outcome → Prop :=
  Outcome.Alike (S.pairing w)

/-- What is in flight corresponds as long as two executions do that catch their failures. -/
def Executes (S : SessionSimulation) : Prop :=
  ∀ {w : S.World} {a b : Nat} {x y : Run Outcome} (key : String), (S.pairing w).sessions a b →
    y.Total → (∀ w', (S.pairing w).Within (S.pairing w') → (S.ties w).Within (S.ties w') →
      S.Rel w' x y S.outcome) →
    S.Rel w (Run.executing a key x) (Run.executing b key y) (S.optional S.result)

/-- What is being loaded corresponds as long as two runs do that compute modules. -/
def Loads (S : SessionSimulation) : Prop :=
  ∀ {w : S.World} {a b : Nat} {x y : Run Value} (specifier : String), (S.ties w).modules a b →
    y.Total → (∀ w', (S.pairing w).Within (S.pairing w') → S.Rel w' x y S.value) →
    S.Rel w (Run.loading a specifier x) (Run.loading b specifier y) S.value

/-- Failures are caught in both runs or in neither. -/
def Catches (S : SessionSimulation) : Prop :=
  ∀ {w : S.World} {α : Type} {R : S.World → α → α → Prop} {x y : Run α}, S.Rel w x y R →
    S.Rel w (Run.outcome x) (Run.outcome y) fun w => ExceptAlike (R w)

/-! ## Parts that ask nothing -/

/-- Of two things that correspond, both pass a test or neither. -/
theorem filter_alike {α β : Type} {R : α → β → Prop} {f : α → Bool} {g : β → Bool}
    (hfg : ∀ a b, R a b → f a = g b) {x : Option α} {y : Option β} (h : Option.Rel R x y) :
    Option.Rel R (x.filter f) (y.filter g) := by
  cases h with
  | none => exact .none
  | some h =>
    rw [Option.filter_some, Option.filter_some, ← hfg _ _ h]
    split
    · exact .some h
    · exact .none

theorem rel_count {a b : Nat} (h : (S.pairing w).sessions a b) (f : Stats → Stats) :
    S.Rel w (Run.count a f) (Run.count b f) S.anything :=
  S.changeSession h (fun _ _ hσ => { hσ with stats := S.count f hσ.stats })
    (fun _ => rfl) (fun _ => rfl)

theorem rel_newResult {o o' : Outcome} (h : S.outcome w o o') :
    S.Rel w (Run.newResult o) (Run.newResult o') S.result :=
  S.bind S.freshId fun _ hw _ _ hi => S.pure ⟨hi, h.mono (S.within hw)⟩

/-- Something is added to what there is for each item. -/
theorem rel_foldlM {α γ : Type} {R : S.World → α → α → Prop} {f g : α → γ → Run α}
    (hf : ∀ w', S.le w w' → ∀ a b c, R w' a b → S.Rel w' (f a c) (g b c) R) (cs : List γ) {a b : α}
    (h : R w a b) : S.Rel w (cs.foldlM f a) (cs.foldlM g b) R := by
  induction cs generalizing a b w with
  | nil => exact S.pure h
  | cons c cs ih =>
    rw [List.foldlM_cons, List.foldlM_cons]
    exact S.bind (hf w (S.le_refl w) a b c h) fun w' hw _ _ hab =>
      ih (fun w'' hw' => hf w'' (S.le_trans hw hw')) hab

/-- An entry is added for something in a folder. -/
theorem rel_addEntry {es es' : Entries} (he : S.entries w es es') (name : String) {x y : Work}
    (h : Work.Alike (S.pairing w) x y) :
    S.Rel w (do return Entries.insert es name (← Run.newThunk x))
      (do return Entries.insert es' name (← Run.newThunk y)) S.entries :=
  S.bind (S.newThunk h) fun _ hw _ _ hs =>
    S.pure (Entries.insert_alike (Simulation.entries_mono hw he) name hs)

theorem rel_lazyEntries {a b : Nat} (h : (S.pairing w).sessions a b) (o : Outline)
    (key : String) :
    S.Rel w (Engine.lazyEntries a o key) (Engine.lazyEntries b o key) S.entries := by
  refine S.bind (rel_foldlM (R := S.entries) (fun w' hw _ _ x he =>
    rel_addEntry he x.name (.expression x.key ((S.within hw).sessions h))) _ .nil)
      fun w₁ h₁ es es' he => ?_
  exact rel_foldlM (R := S.entries) (fun w' hw _ _ x he =>
    rel_addEntry he x.name (.folder x.key ((S.within (S.le_trans h₁ hw)).sessions h))) _ he

/-- New sessions correspond if their modules and overrides do. -/
theorem rel_newSessionWith {a b : Nat} (h : (S.ties w).modules a b) (tree : Tree)
    {o o' : Settings} (hs : (S.ties w).settings o o') {os os' : List (String × Value)}
    (ho : S.locals w os os') (time : Float) :
    S.Rel w (Run.newSessionWith a tree o os time) (Run.newSessionWith b tree o' os' time)
      S.born := by
  refine S.bind Simulation.rel_newLibrary fun w₁ h₁ library library' hl => ?_
  refine S.bind Simulation.rel_newMath fun w₂ h₂ math math' hm => ?_
  have hw := S.le_trans h₁ h₂
  exact S.addSession
    { place := rfl
      overrides := Simulation.locals_mono hw ho
      timeVariable := (S.settings hs).timeVariable
      time := rfl
      library := Simulation.value_mono h₂ hl
      math := hm
      alive := rfl
      tree := rfl
      outline := rfl
      settings := (S.ties_within hw).settings hs
      results := .nil
      inFlight := rfl
      folderValues := .nil
      imports := .nil
      scripts := S.empty ((S.ties_within hw).settings hs)
      modules := (S.ties_within hw).modules h
      stats := S.unused } rfl rfl

/-- Sessions that are there. -/
theorem rel_sessionThere {a b : Nat} (h : (S.pairing w).sessions a b) :
    S.Rel w (Run.session a) (Run.session b) S.session := by
  refine S.look fun s t hs => ?_
  have hst := filter_alike (fun _ _ hσ => hσ.alive) (hs.sessions h)
  generalize (s.sessions[a]?).filter (·.alive) = x at hst ⊢
  generalize (t.sessions[b]?).filter (·.alive) = y at hst ⊢
  cases hst with
  | none => exact S.fail _
  | some hσ => exact S.pure hσ

/-- Both sessions are there or neither is. -/
theorem any_alive {x y : Option Session} (h : Option.Rel (S.session w) x y) :
    x.any (·.alive) = y.any (·.alive) := by
  cases h with
  | none => rfl
  | some hσ => exact hσ.alive

/-! ## Parts that ask -/

/-- Two engines that answer alike, as sessions ask them for all but running scripts. -/
structure Reaches (S : SessionSimulation) (e₁ e₂ : Engine) : Prop where
  answers : S.Answers e₁ e₂
  evaluate : ∀ {w a b} (key : String), (S.pairing w).sessions a b →
    S.Rel w (e₁.ask (.evaluate a key)) (e₂.ask (.evaluate b key)) (S.optional S.result)

/-- Two engines that answer alike, as sessions ask them. -/
structure Serves (S : SessionSimulation) (e₁ e₂ : Engine) : Prop extends S.Reaches e₁ e₂ where
  runScript : ∀ {w s t}, Scope.Alike (S.pairing w) (S.native w) s t →
    ∀ (maxDepth : Nat) (name : String) (body : List Script.Stmt),
      S.Rel w (e₁.runScript s maxDepth name body) (e₂.runScript t maxDepth name body) S.native

namespace Reaches

variable (he : S.Reaches e₁ e₂)
include he

/-! ### Lazy entries -/

theorem perform {x y : Work} (h : Work.Alike (S.pairing w) x y) :
    S.Rel w (e₁.perform x) (e₂.perform y) S.value := by
  cases h with
  | value hv => exact S.pure hv
  | @expression key a b hab =>
    refine S.look fun s t hs => ?_
    rw [any_alive (hs.sessions hab)]
    split
    · refine S.bind (he.evaluate key hab) fun w' _ r r' hr => ?_
      cases hr with
      | none => exact S.pure .null
      | some hr => exact S.pure hr.outcome.toValue
    · exact S.pure .null
  | @folder key a b hab =>
    refine S.look fun s t hs => ?_
    rw [any_alive (hs.sessions hab)]
    split
    · exact he.answers.folderValue key hab
    · exact S.pure .null

theorem forceOf {a b : Nat} (h : (S.pairing w).thunks a b) :
    S.Rel w (e₁.force a) (e₂.force b) S.value := by
  refine S.look fun s t hs => ?_
  have hx := hs.thunks h
  generalize s.thunks[a]? = x at hx ⊢
  generalize t.thunks[b]? = y at hx ⊢
  cases hx with
  | none => exact S.pure .null
  | some hx =>
    cases hx with
    | done hv => exact S.pure hv
    | pending hwork =>
      refine S.bind (he.perform hwork) fun w₁ h₁ v v' hv => ?_
      have hab := (S.within h₁).thunks h
      have hfill : S.Rel w₁ (do Run.settle a v; return v) (do Run.settle b v'; return v')
          S.value :=
        S.bind (S.settle hab hv) fun w₂ h₂ _ _ _ => S.pure (Simulation.value_mono h₂ hv)
      refine S.look fun s₁ t₁ hs₁ => ?_
      have hx₁ := hs₁.thunks hab
      generalize s₁.thunks[a]? = x at hx₁ ⊢
      generalize t₁.thunks[b]? = y at hx₁ ⊢
      cases hx₁ with
      | none => exact hfill
      | some hx₁ =>
        cases hx₁ with
        | done hv₁ => exact S.pure hv₁
        | pending _ => exact hfill

/-! ### Folders -/

theorem firstResult {a b : Nat} (h : (S.pairing w).sessions a b) (keys : List String) :
    S.Rel w (e₁.firstResult a keys) (e₂.firstResult b keys) (S.optional S.result) := by
  induction keys generalizing w with
  | nil => exact S.pure .none
  | cons key rest ih =>
    refine S.bind (he.evaluate key h) fun w' hw r r' hr => ?_
    cases hr with
    | none => exact ih ((S.within hw).sessions h)
    | some hr => exact S.pure (.some hr)

theorem folderValueOf {a b : Nat} (h : (S.pairing w).sessions a b) (key : String) :
    S.Rel w (e₁.folderValue a key) (e₂.folderValue b key) S.value := by
  refine S.look fun s t hs => ?_
  have hst := hs.sessions h
  generalize s.sessions[a]? = x at hst ⊢
  generalize t.sessions[b]? = y at hst ⊢
  cases hst with
  | none => exact S.pure .null
  | @some σ σ' hσ =>
    simp only [hσ.outline]
    split
    · exact S.pure .null
    · refine S.bind (he.firstResult h _) fun w₁ h₁ r r' hr => ?_
      cases hr with
      | some hr => exact S.pure hr.outcome.toValue
      | none =>
        have hl := Keyed.lookup_alike hσ.folderValues key
        simp only
        generalize σ.folderValues.lookup key = x at hl ⊢
        generalize σ'.folderValues.lookup key = y at hl ⊢
        cases hl with
        | some hv => exact S.pure (Simulation.value_mono h₁ hv)
        | none =>
          have hab := (S.within h₁).sessions h
          refine S.bind (rel_lazyEntries hab _ key) fun w₂ h₂ es es' hes => ?_
          have hv := Value.ofEntries_alike hes
          refine S.bind (S.changeSession ((S.within h₂).sessions hab)
            (fun _ _ hσ => { hσ with folderValues := .cons (.mk key hv) hσ.folderValues })
            (fun _ => rfl) fun _ => rfl) fun w₃ h₃ _ _ _ => ?_
          exact S.pure (Simulation.value_mono h₃ hv)

/-! ### Imports -/

theorem valueAt? {a b : Nat} (h : (S.pairing w).sessions a b) (o : Outline) (key : String) :
    S.Rel w (e₁.valueAt? a o key) (e₂.valueAt? b o key) (S.optional S.value) := by
  unfold Engine.valueAt?
  split
  · refine S.bind (he.evaluate key h) fun w' _ r r' hr => S.pure (.some ?_)
    cases hr with
    | none => exact .null
    | some hr => exact hr.outcome.toValue
  · split
    · exact S.bind (he.answers.folderValue key h) fun _ _ _ _ hv => S.pure (.some hv)
    · exact S.pure .none

theorem importRelative {a b : Nat} (h : (S.pairing w).sessions a b) {σ σ' : Session}
    (hσ : S.session w σ σ') (folder specifier : String) :
    S.Rel w (e₁.importRelative a σ folder specifier) (e₂.importRelative b σ' folder specifier)
      S.value := by
  unfold Engine.importRelative
  split
  · exact Simulation.rel_fault _
  · rename_i key _
    have hl := Keyed.lookup_alike hσ.imports key
    simp only [hσ.outline]
    generalize σ.imports.lookup key = x at hl ⊢
    generalize σ'.imports.lookup key = y at hl ⊢
    cases hl with
    | some hv => exact S.pure hv
    | none =>
      refine S.bind (he.valueAt? h _ key) fun w₁ h₁ r r' hr => ?_
      cases hr with
      | none => exact Simulation.rel_fault _
      | some hv =>
        refine S.bind (S.changeSession ((S.within h₁).sessions h)
          (fun _ _ hσ => { hσ with imports := .cons (.mk key hv) hσ.imports })
          (fun _ => rfl) fun _ => rfl) fun w₂ h₂ _ _ _ => ?_
        exact S.pure (Simulation.value_mono h₂ hv)

omit he in
theorem checked_alike {p : Pairing} {v v' : Value} (h : Value.Alike p v v') :
    ExceptAlike (Value.Alike p) (Import.checked v) (Import.checked v') := by
  cases h with
  | error kind message _ => exact .error _
  | null => exact .ok .null
  | boolean b => exact .ok (.boolean b)
  | integer n => exact .ok (.integer n)
  | float x => exact .ok (.float x)
  | big n => exact .ok (.big n)
  | string s => exact .ok (.string s)
  | date n => exact .ok (.date n)
  | bytes h => exact .ok (.bytes h)
  | list items origin => exact .ok (.list items origin)
  | mapping entries origin => exact .ok (.mapping entries origin)
  | function h => exact .ok (.function h)
  | signal marker => exact .ok (.signal marker)

omit he in
/-- Loading a module, with the time while it is computed in one piece. -/
theorem loadModule_eq (e : Engine) (σ : Session) (specifier : String) (tree : Tree) :
    e.loadModule σ specifier tree = do
      let place ← Run.newSessionWith σ.modules tree σ.settings σ.overrides σ.time
      let root ← Run.loading σ.modules specifier (e.ask (.folderValue place ""))
      match Import.checked root with
      | .error f =>
        Run.release place
        Run.fault f
      | .ok _ =>
        Run.changeModules σ.modules fun m =>
          { m with loaded := Keyed.put specifier place m.loaded }
        return place := by
  unfold Engine.loadModule Run.loading
  refine bind_congr fun place => ?_
  rw [bind_assoc]
  refine bind_congr fun _ => ?_
  rw [bind_assoc]
  refine bind_congr fun root => ?_
  rw [bind_assoc]
  exact bind_congr fun _ => (pure_bind _ _).symm

theorem loadModule (hl : S.Loads) (ht : e₂.Total) {σ σ' : Session} (hσ : S.session w σ σ')
    (specifier : String) (tree : Tree) :
    S.Rel w (e₁.loadModule σ specifier tree) (e₂.loadModule σ' specifier tree)
      fun w => (S.pairing w).sessions := by
  have hm := hσ.modules
  rw [loadModule_eq, loadModule_eq, hσ.time]
  refine S.bind (rel_newSessionWith hm tree hσ.settings hσ.overrides _) fun w₁ h₁ a b hab => ?_
  have hm₁ := (S.ties_within h₁).modules hm
  have hload := hl specifier hm₁ (ht.folderValue b "") fun w' hw =>
    he.answers.folderValue "" (hw.sessions (S.born_sessions hab))
  refine S.bind hload fun w₂ h₂ root root' hroot => ?_
  have hab₂ := S.born_mono h₂ hab
  have hc := checked_alike hroot
  generalize Import.checked root = x at hc ⊢
  generalize Import.checked root' = y at hc ⊢
  cases hc with
  | error f =>
    exact S.bind (S.release hab₂) fun _ _ _ _ _ => Simulation.rel_fault f
  | ok _ =>
    exact S.bind (S.keepModule specifier ((S.ties_within h₂).modules hm₁) hab₂)
      fun _ hw _ _ _ => S.pure ((S.within hw).sessions (S.born_sessions hab₂))

theorem moduleSession (hl : S.Loads) (ht : e₂.Total) {σ σ' : Session} (hσ : S.session w σ σ')
    (specifier : String) :
    S.Rel w (e₁.moduleSession σ specifier) (e₂.moduleSession σ' specifier)
      fun w => (S.pairing w).sessions := by
  refine S.look fun s t hs => ?_
  have hm := filter_alike (fun _ _ hm => hm.alive) (hs.modules hσ.modules)
  generalize (s.modules[σ.modules]?).filter (·.alive) = x at hm ⊢
  generalize (t.modules[σ'.modules]?).filter (·.alive) = y at hm ⊢
  cases hm with
  | none => exact S.fail _
  | @some m m' hm =>
    have hl := Keyed.lookup_alike hm.loaded specifier
    simp only
    generalize m.loaded.lookup specifier = x at hl ⊢
    generalize m'.loaded.lookup specifier = y at hl ⊢
    cases hl with
    | some hab => exact S.pure hab
    | none =>
      simp only [hm.loading, hm.registry]
      cases m'.loading.contains specifier with
      | true => exact S.bind (R := fun _ _ _ => False) (Simulation.rel_fault _) fun _ _ _ _ h => h.elim
      | false =>
        simp only [Bool.false_eq_true, if_false]
        cases m'.registry.lookup specifier with
        | none => exact Simulation.rel_fault _
        | some tree => exact he.loadModule hl ht hσ specifier tree

theorem importValue (hl : S.Loads) (ht : e₂.Total) {a b : Nat} (h : (S.pairing w).sessions a b)
    (folder : String) {vs ws : List Value} (hv : S.values w vs ws) :
    S.Rel w (e₁.importValue a folder vs) (e₂.importValue b folder ws) S.value := by
  have hchecked {w : S.World} {v v' : Value} (hv : S.value w v v') :
      S.Rel w (Run.ofFaulty (Import.checked v)) (Run.ofFaulty (Import.checked v')) S.value :=
    Simulation.rel_ofFaulty (checked_alike hv)
  have harg := getElem?_alike hv 0
  unfold Engine.importValue
  generalize vs[0]? = x at harg ⊢
  generalize ws[0]? = y at harg ⊢
  cases harg with
  | none => exact Simulation.rel_fault _
  | some hx =>
    cases hx with
    | string specifier =>
      refine S.bind (rel_sessionThere h) fun w₁ h₁ σ σ' hσ => ?_
      have hab := (S.within h₁).sessions h
      simp only
      split
      · exact S.bind (he.importRelative hab hσ folder specifier) fun _ _ _ _ hv => hchecked hv
      · exact S.bind (he.moduleSession hl ht hσ specifier) fun _ _ _ _ hm =>
          S.bind (he.answers.folderValue "" hm) fun _ _ _ _ hv => hchecked hv
    | _ => exact Simulation.rel_fault _

/-! ### Executing -/

omit he in
theorem unreadableFormula_alike {p : Pairing} (source : Source) (ps : Problems) :
    Outcome.Alike p (.unreadableFormula source ps) (.unreadableFormula source ps) := by
  unfold Outcome.unreadableFormula
  split <;> exact .failure _ _

omit he in
theorem unreadableScript_alike {p : Pairing} (ps : Problems) :
    Outcome.Alike p (.unreadableScript ps) (.unreadableScript ps) := by
  unfold Outcome.unreadableScript
  split <;> exact .failure _ _

theorem executeFormula (hc : S.Catches) {a b : Nat} (h : (S.pairing w).sessions a b)
    {σ σ' : Session} (hσ : S.session w σ σ') (node : Outline.Expression) :
    S.Rel w (e₁.executeFormula a σ node) (e₂.executeFormula b σ' node) S.outcome := by
  have hsource : σ.sourceText node = σ'.sourceText node := by
    unfold Session.sourceText
    rw [hσ.tree]
  unfold Engine.executeFormula
  simp only [hsource, (S.settings hσ.settings).maxCallDepth]
  cases Formula.compile ⟨node.path, σ'.sourceText node⟩ with
  | error ps => exact S.pure (unreadableFormula_alike _ ps)
  | ok body =>
    refine S.bind (hc (he.answers.runFormula (.folder _ h) _ _)) fun w₁ h₁ r r' hr => ?_
    cases hr with
    | error f => exact S.pure (.failure _ _)
    | ok hv =>
      refine S.bind (he.answers.native hv) fun w₂ h₂ n n' hn => ?_
      refine S.bind (S.freeze hn) fun w₃ h₃ _ _ _ => S.pure ?_
      exact .value (Simulation.native_mono h₃ hn) (Simulation.value_mono (S.le_trans h₂ h₃) hv)

end Reaches

namespace Serves

variable (he : S.Serves e₁ e₂)
include he

theorem executeScript (hc : S.Catches) {a b : Nat} (h : (S.pairing w).sessions a b)
    {σ σ' : Session} (hσ : S.session w σ σ') (node : Outline.Expression) :
    S.Rel w (e₁.executeScript a σ node) (e₂.executeScript b σ' node) S.outcome := by
  have hsource : σ.sourceText node = σ'.sourceText node := by
    unfold Session.sourceText
    rw [hσ.tree]
  unfold Engine.executeScript
  simp only [hsource, (S.settings hσ.settings).maxCallDepth]
  refine S.bind (S.compiled _ h hσ) fun w₁ h₁ c c' hcc => ?_
  obtain rfl := hcc
  cases c with
  | error ps => exact S.pure (Reaches.unreadableScript_alike ps)
  | ok p =>
    refine S.bind (hc (he.runScript (.folder _ ((S.within h₁).sessions h)) _ _ _))
      fun w₂ h₂ r r' hr => ?_
    cases hr with
    | error f => exact S.pure (.failure _ _)
    | @ok n n' hn =>
      refine S.get fun s t hs => ?_
      have hv := hs.value hn
      generalize n.toValue s = x at hv ⊢
      generalize n'.toValue t = y at hv ⊢
      cases hv with
      | error f => exact S.pure (.failure _ _)
      | ok hv =>
        refine S.bind (S.freeze hn) fun w₃ h₃ _ _ _ => S.pure ?_
        exact .value (Simulation.native_mono h₃ hn) (Simulation.value_mono h₃ hv)

theorem execute (hc : S.Catches) {a b : Nat} (h : (S.pairing w).sessions a b)
    {σ σ' : Session} (hσ : S.session w σ σ') (node : Outline.Expression) :
    S.Rel w (e₁.execute a σ node) (e₂.execute b σ' node) S.outcome := by
  refine S.bind (rel_count h _) fun w₁ h₁ _ _ _ => ?_
  have hab := (S.within h₁).sessions h
  have hσ₁ := hσ.mono (S.within h₁) (S.ties_within h₁)
  split
  · exact he.executeFormula hc hab hσ₁ node
  · exact he.executeScript hc hab hσ₁ node

/-! ### Evaluating -/

theorem evaluateOf (hc : S.Catches) (hx : S.Executes) (ht : e₂.Total) {a b : Nat}
    (h : (S.pairing w).sessions a b) (key : String) :
    S.Rel w (e₁.evaluate a key) (e₂.evaluate b key) (S.optional S.result) := by
  refine S.look fun s t hs => ?_
  have hst := hs.sessions h
  generalize s.sessions[a]? = x at hst ⊢
  generalize t.sessions[b]? = y at hst ⊢
  cases hst with
  | none => exact S.pure .none
  | @some σ σ' hσ =>
    have hl := Keyed.lookup_alike hσ.results key
    simp only [hσ.outline, hσ.inFlight]
    generalize σ.results.lookup key = x at hl ⊢
    generalize σ'.results.lookup key = y at hl ⊢
    cases σ'.outline.expression? key with
    | none => exact S.pure .none
    | some node =>
      cases hl with
      | some hr =>
        exact S.bind (rel_count h _) fun _ hw _ _ _ => S.pure (.some (hr.mono (S.within hw)))
      | none =>
        simp only
        split
        · refine S.bind (rel_count h _) fun w₁ h₁ _ _ _ => ?_
          exact Simulation.Rel.map (rel_newResult (.failure _ _)) fun _ _ _ _ hr => .some hr
        · exact hx key h (ht.execute b σ' node) fun w' hp hties =>
            he.execute hc (hp.sessions h) (hσ.mono hp hties) node

/-- The parts that lead into sessions correspond. -/
theorem enters (hc : S.Catches) (hx : S.Executes) (hl : S.Loads) (ht : e₂.Total) :
    S.Enters e₁ e₂ where
  force h := he.forceOf h
  evaluate key h := he.evaluateOf hc hx ht h key
  folderValue key h := he.folderValueOf h key
  importValue folder h hv := he.importValue hl ht h folder hv

end Serves

/-- Engines that answer all requests alike serve alike. -/
theorem serves_of_responds (hS : S.Thorough) (he : S.Responds e₁ e₂)
    (evaluate : ∀ {w a b} (key : String), (S.pairing w).sessions a b →
      S.Rel w (e₁.ask (.evaluate a key)) (e₂.ask (.evaluate b key)) (S.optional S.result)) :
    S.Serves e₁ e₂ where
  answers := he.toAnswers
  runScript := he.runScript hS.toScripting
  evaluate := evaluate

/-- Every engine responds together with one that nests requests as deep, or deeper if the other
may be exhausted earlier. -/
theorem responds (hS : S.Thorough) (hc : S.Catches) (hx : S.Executes) (hl : S.Loads) :
    ∀ {m n : Nat}, S.Fuel m n → S.Responds (Engine.ofFuel m) (Engine.ofFuel n) ∧
      S.Serves (Engine.ofFuel m) (Engine.ofFuel n)
  | 0, 0, _ =>
    have he := Simulation.responds_zero
    ⟨he, serves_of_responds hS he fun _ _ => S.exhausted⟩
  | 0, _ + 1, hf =>
    have he := Simulation.responds_of_all fun _ _ => S.fuel_left hf
    ⟨he, serves_of_responds hS he fun _ _ => S.fuel_left hf⟩
  | _ + 1, 0, hf =>
    have he := Simulation.responds_of_all fun _ _ => S.fuel_right hf
    ⟨he, serves_of_responds hS he fun _ _ => S.fuel_right hf⟩
  | _ + 1, n + 1, hf =>
    have ⟨he, hs⟩ := responds hS hc hx hl (S.fuel_succ hf)
    have ht := Engine.total_ofFuel n
    have hnext := he.next hS (hs.enters hc hx hl ht) (S.fuel_succ hf)
    ⟨hnext, serves_of_responds hS hnext fun key h => hs.evaluateOf hc hx ht h key⟩

theorem serves (hS : S.Thorough) (hc : S.Catches) (hx : S.Executes) (hl : S.Loads) {m n : Nat}
    (hf : S.Fuel m n) : S.Serves (Engine.ofFuel m) (Engine.ofFuel n) :=
  (responds hS hc hx hl hf).2

end SessionSimulation
end Workbook
