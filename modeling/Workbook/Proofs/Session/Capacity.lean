/-
How many compiled scripts are kept.

A cache holds the last scripts that it took, as many as fit, each under the text that it was
put in under; `Cache.entries_after` is the statement for every sequence of accesses.  What a
session answers and counts does not depend on the number.  Two stores that differ only in what
has been compiled, and in how much of it is kept, are `Store.Recached`; every step takes such
stores to such stores and comes to the same in both, for a script that is found is what
compiling its text comes to.  `capacity_is_unseen` puts both together.
-/
import Mathlib
import Workbook.Proofs.Session.Renewal
import Workbook.Proofs.Session.Revision

open List (Forall₂)

namespace Workbook

/-! ## Caches -/

namespace Script.Cache

/-- What is done with a cache. -/
inductive Access
  | insert (source : String) (p : Program)
  | find (source : String)

/-- The cache after an access; looking for a script changes nothing. -/
def after (c : Cache) : Access → Cache
  | .insert source p => c.insert source p
  | .find _ => c

/-- The last scripts of a log, as many as fit. -/
def latest (capacity : Nat) (log : List (String × Program)) : List (String × Program) :=
  log.drop (log.length - capacity)

/-- The scripts that a cache has taken, in the order they came: each one that was put in while
none of the last ones had its text. -/
def logged (capacity : Nat) (log : List (String × Program)) :
    Access → List (String × Program)
  | .insert source p =>
    if ((latest capacity log).lookup source).isSome then log else log ++ [(source, p)]
  | .find _ => log

theorem capacity_after (c : Cache) (a : Access) : (c.after a).capacity = c.capacity := by
  cases a with
  | insert source p =>
    simp only [after, insert]
    split <;> rfl
  | find source => rfl

theorem length_latest (capacity : Nat) (log : List (String × Program)) :
    (latest capacity log).length ≤ capacity := by
  simp only [latest, List.length_drop]
  omega

/-- Taking one script more lets go of the oldest one, if there is no room for both. -/
theorem latest_concat {capacity : Nat} (h : 0 < capacity) (log : List (String × Program))
    (e : String × Program) :
    latest capacity (log ++ [e]) =
      (latest capacity log).drop ((latest capacity log).length + 1 - capacity) ++ [e] := by
  have hdrop : log.length + 1 - capacity ≤ log.length := by omega
  simp only [latest, List.length_append, List.length_singleton, List.length_drop, List.drop_drop]
  rw [List.drop_append_of_le_length hdrop]
  congr 2
  omega

/-- A cache that holds the last scripts of a log holds the last ones after an access. -/
theorem entries_step {c : Cache} {log : List (String × Program)}
    (h : c.entries = latest c.capacity log) (a : Access) :
    (c.after a).entries = latest c.capacity (logged c.capacity log a) := by
  cases a with
  | find source => exact h
  | insert source p =>
    simp only [after, insert, logged, find?, h]
    by_cases hfound : ((latest c.capacity log).lookup source).isSome = true
    · simp only [hfound, or_true, if_true]
      exact h
    · by_cases hzero : c.capacity = 0
      · simp only [hzero, true_or, if_true]
        have hnone : c.entries.length ≤ 0 := by
          have hlength := length_latest c.capacity log
          rwa [← h, hzero] at hlength
        have hnone' := length_latest 0 (log ++ [(source, p)])
        rw [hzero] at hfound
        simp only [hfound, Bool.false_eq_true, if_false]
        rw [List.length_eq_zero_iff.1 (Nat.le_zero.1 hnone),
          List.length_eq_zero_iff.1 (Nat.le_zero.1 hnone')]
      · simp only [hzero, hfound, or_self, Bool.false_eq_true, if_false]
        exact (latest_concat (Nat.pos_of_ne_zero hzero) log _).symm

theorem foldl_after (accesses : List Access) {c : Cache} {log : List (String × Program)}
    (h : c.entries = latest c.capacity log) :
    (accesses.foldl after c).entries =
      latest c.capacity (accesses.foldl (logged c.capacity) log) := by
  induction accesses generalizing c log with
  | nil => exact h
  | cons a accesses ih =>
    have hstep := entries_step h a
    rw [← capacity_after c a] at hstep
    rw [List.foldl_cons, List.foldl_cons, ih hstep, capacity_after]

/-- Whatever is done with it, a cache holds the last scripts that it took. -/
theorem entries_after (capacity : Nat) (accesses : List Access) :
    (accesses.foldl after (.empty capacity)).entries =
      latest capacity (accesses.foldl (logged capacity) []) :=
  foldl_after accesses (by simp [empty, latest])

/-- What was taken was put in. -/
theorem mem_logged {capacity : Nat} (accesses : List Access) {log : List (String × Program)}
    {e : String × Program} (h : e ∈ accesses.foldl (logged capacity) log) :
    e ∈ log ∨ .insert e.1 e.2 ∈ accesses := by
  induction accesses generalizing log with
  | nil => exact .inl h
  | cons a accesses ih =>
    rw [List.foldl_cons] at h
    rcases ih h with hlog | hrest
    · cases a with
      | find source => exact .inl hlog
      | insert source p =>
        simp only [logged] at hlog
        split at hlog
        · exact .inl hlog
        · rcases List.mem_append.1 hlog with hold | hnew
          · exact .inl hold
          · rw [List.mem_singleton.1 hnew]
            exact .inr List.mem_cons_self
    · exact .inr (List.mem_cons_of_mem _ hrest)

/-- There is one script for a text at most. -/
theorem nodup_step {capacity : Nat} {log : List (String × Program)}
    (h : ((latest capacity log).map (·.1)).Nodup) (a : Access) :
    ((latest capacity (logged capacity log a)).map (·.1)).Nodup := by
  cases a with
  | find source => exact h
  | insert source p =>
    simp only [logged]
    split
    · exact h
    · rename_i hnone
      by_cases hzero : capacity = 0
      · have hlength := length_latest 0 (log ++ [(source, p)])
        rw [hzero, List.length_eq_zero_iff.1 (Nat.le_zero.1 hlength)]
        exact List.nodup_nil
      · rw [latest_concat (Nat.pos_of_ne_zero hzero), List.map_append, List.nodup_append]
        refine ⟨h.sublist ((List.drop_sublist _ _).map _), List.nodup_singleton _, ?_⟩
        intro key hkey other hother heq
        have hsource : other = source := List.mem_singleton.1 hother
        obtain ⟨e, he, hekey⟩ := List.mem_map.1 hkey
        have habsent := List.lookup_eq_none_iff.1 (Option.not_isSome_iff_eq_none.1 hnone) e
          (List.mem_of_mem_drop he)
        simp [hekey, heq, hsource] at habsent

theorem nodup_after (capacity : Nat) (accesses : List Access) :
    ((latest capacity (accesses.foldl (logged capacity) [])).map (·.1)).Nodup := by
  have hrun : ∀ log : List (String × Program), ((latest capacity log).map (·.1)).Nodup →
      ((latest capacity (accesses.foldl (logged capacity) log)).map (·.1)).Nodup := by
    induction accesses with
    | nil => exact fun _ h => h
    | cons a accesses ih => exact fun log h => ih _ (nodup_step h a)
  exact hrun [] (by simp [latest])

end Script.Cache

/-! ## Stores with other caches -/

namespace Session

/-- A session without what it has compiled, and without how much of that it may keep. -/
def uncached (σ : Session) : Session :=
  { σ with scripts := .empty 0, settings := { σ.settings with cacheCapacity := 0 } }

/-- Two sessions that differ only in what they have compiled, each text to what it comes to, and
in how much of it they may keep. -/
structure Recached (σ σ' : Session) : Prop where
  same : σ.uncached = σ'.uncached
  scripts : σ.scripts.Valid ∧ σ'.scripts.Valid

end Session

/-- Everything tied to itself but what is compiled. -/
def Ties.recached : Ties where
  settings := Settings.Alike
  modules := Eq
  caches c c' := c.Valid ∧ c'.Valid
  stats := Eq

namespace Session

variable {σ σ' : Session}

theorem Recached.refl (h : σ.scripts.Valid) : σ.Recached σ :=
  ⟨rfl, h, h⟩

/-- A change that leaves alone what is compiled. -/
theorem Recached.change {f : Session → Session} (h : σ.Recached σ')
    (hf : ∀ (σ : Session) c o,
      f { σ with scripts := c, settings := o } = { f σ with scripts := c, settings := o }) :
    (f σ).Recached (f σ') := by
  have hself (σ : Session) : f σ = { f σ with scripts := σ.scripts, settings := σ.settings } :=
    hf σ σ.scripts σ.settings
  have huncached (σ : Session) : (f σ).uncached = f σ.uncached := by
    have hsettings : (f σ).settings = σ.settings := by rw [hself]
    unfold uncached
    rw [hsettings]
    exact (hf σ _ _).symm
  refine ⟨?_, ?_⟩
  · rw [huncached, huncached, h.same]
  · rw [hself σ, hself σ']
    exact h.scripts

theorem Recached.settings (h : σ.Recached σ') : σ.settings.Alike σ'.settings := by
  have hsettings : σ.uncached.settings = σ'.uncached.settings := congrArg _ h.same
  simp only [uncached, Settings.mk.injEq] at hsettings
  exact ⟨hsettings.1, hsettings.2.2⟩

theorem Recached.tied (h : σ.Recached σ') : σ.Tied .same .recached σ' := by
  have hsettings := h.settings
  obtain ⟨hsame, hscripts⟩ := h
  cases σ
  cases σ'
  simp only [uncached, Session.mk.injEq] at hsame
  obtain ⟨rfl, rfl, rfl, -, rfl, rfl, rfl, rfl, rfl, rfl, rfl, rfl, -, rfl, rfl⟩ := hsame
  exact { Session.tied_self _ with
    timeVariable := hsettings.timeVariable
    settings := hsettings
    scripts := hscripts
    modules := rfl
    stats := rfl }

theorem Recached.of_tied (h : σ.Tied .same .recached σ') : σ.Recached σ' := by
  refine ⟨?_, h.scripts⟩
  refine eq_of_tied
    { h with
      settings := ?_
      scripts := rfl
      modules := h.modules
      stats := h.stats }
  simp only [Ties.same, uncached, Settings.mk.injEq]
  exact ⟨h.settings.timeVariable, trivial, h.settings.maxCallDepth⟩

end Session

namespace Store

/-- Two stores that differ only in what their sessions have compiled, and how much of it they
may keep. -/
structure Recached (s t : Store) : Prop where
  rest : t = { s with sessions := t.sessions }
  sessions : ∀ place : Nat, Option.Rel Session.Recached s.sessions[place]? t.sessions[place]?

namespace Recached

variable {s t : Store}

theorem refl (h : ∀ σ ∈ s.sessions, σ.scripts.Valid) : s.Recached s := by
  refine ⟨rfl, fun place => ?_⟩
  cases hσ : s.sessions[place]? with
  | none => exact .none
  | some σ => exact .some (.refl (h σ (Array.mem_of_getElem? hσ)))

/-- A change that leaves sessions alone. -/
theorem change {f : Store → Store} (h : s.Recached t)
    (hf : ∀ (s : Store) ss, f { s with sessions := ss } = { f s with sessions := ss }) :
    (f s).Recached (f t) := by
  have hsessions (s : Store) : (f s).sessions = s.sessions := by
    have hs : f s = { f s with sessions := s.sessions } := hf s s.sessions
    rw [hs]
  constructor
  · rw [hsessions t, ← hf, ← h.rest]
  · rw [hsessions s, hsessions t]
    exact h.sessions

theorem tied (h : s.Recached t) : s.Tied .same .recached t := by
  have hself := s.tied_self
  constructor
  · intro a b hab
    rw [h.rest]
    exact hself.thunks hab
  · rintro a _ rfl
    exact optional_imp (fun _ _ hσ => hσ.tied) (h.sessions a)
  · intro a b hab
    rw [h.rest]
    exact hself.modules hab

theorem changeSession {f g : Session → Session} (h : s.Recached t) (place : Nat)
    (hfg : ∀ σ σ', Session.Recached σ σ' → (f σ).Recached (g σ')) :
    (s.changeSession place f).Recached (t.changeSession place g) := by
  constructor
  · conv_lhs => rw [h.rest]
    rfl
  · intro other
    have hold := h.sessions other
    simp only [Store.changeSession, Array.getElem?_modify]
    split
    · exact optional_map hold hfg
    · exact hold

theorem size (h : s.Recached t) : s.sessions.size = t.sessions.size := by
  have hsize (n : Nat) : s.sessions.size ≤ n ↔ t.sessions.size ≤ n := by
    have hisSome := optional_isSome (h.sessions n)
    rw [← Array.getElem?_eq_none_iff, ← Array.getElem?_eq_none_iff, ← Option.not_isSome_iff_eq_none,
      hisSome, Option.not_isSome_iff_eq_none]
  have hs := hsize s.sessions.size
  have ht := hsize t.sessions.size
  omega

theorem addSession {σ σ' : Session} (h : s.Recached t) (hσ : σ.Recached σ') :
    (s.addSession σ).Recached (t.addSession σ') := by
  constructor
  · conv_lhs => rw [h.rest]
    rfl
  · intro place
    simp only [Store.addSession, Array.getElem?_push, h.size]
    split
    · exact .some hσ
    · exact h.sessions place

/-- What is equal of two stores that differ in their sessions. -/
theorem eq_of {α : Type} (h : s.Recached t) {f : Store → α}
    (hf : ∀ (s : Store) ss, f { s with sessions := ss } = f s) : f s = f t := by
  rw [h.rest]
  exact (hf s _).symm

/-- The coupling of stores that differ in what is compiled. -/
def coupling : Coupling where
  left := .nothing
  right := .nothing
  World := Unit
  le _ _ := True
  le_refl _ := trivial
  le_trans _ _ := trivial
  pairing _ := .same
  within _ := .refl _
  Inv _ := Store.Recached
  alike {_ s t} h := by
    rw [h.rest]
    exact Revision.store_alike s _
  freshId h := ⟨(), trivial, h.change (f := fun s => { s with fresh := s.fresh + 1 }) fun _ _ => rfl,
    h.eq_of (f := Store.fresh) fun _ _ => rfl⟩
  newArray {_ s t xs ys} h hxs := by
    obtain rfl := Array.toList_inj.1 (Native.eq_of_forall hxs)
    exact ⟨(), trivial,
      h.change (f := fun s => { s with arrays := s.arrays.push (.ofContent xs) }) fun _ _ => rfl,
      h.eq_of (f := (·.arrays.size)) fun _ _ => rfl⟩
  newObject {_ s t fs gs} h hfs := by
    obtain rfl := Keyed.eq_of_forall (fun _ _ => Native.eq_of_alike) hfs
    exact ⟨(), trivial,
      h.change (f := fun s => { s with objects := s.objects.push (.ofContent fs) }) fun _ _ => rfl,
      h.eq_of (f := (·.objects.size)) fun _ _ => rfl⟩
  arrayFrozen := by
    rintro _ s t a _ h rfl
    exact h.eq_of (f := (·.arrayFrozen a)) fun _ _ => rfl
  objectFrozen := by
    rintro _ s t a _ h rfl
    exact h.eq_of (f := (·.objectFrozen a)) fun _ _ => rfl
  modifyArray := by
    rintro _ s t a _ f g h rfl - hfg -
    obtain rfl := Container.funext_of_alike (fun _ _ h => Array.toList_inj.1 (Native.eq_of_forall h))
      (fun _ => Native.forall_self _) hfg
    exact h.change (f := (·.modifyArray a f)) fun _ _ => rfl
  modifyObject := by
    rintro _ s t a _ f g h rfl - hfg -
    obtain rfl := Container.funext_of_alike
      (fun _ _ h => Keyed.eq_of_forall (fun _ _ => Native.eq_of_alike) h) Store.fields_alike_self hfg
    exact h.change (f := (·.modifyObject a f)) fun _ _ => rfl
  freeze {_ s t v v'} h hv := by
    obtain rfl := Native.eq_of_alike hv
    exact ⟨(), trivial, h.change (f := (·.freeze v)) fun s ss => Revision.freezeAll_sessions _ s ss [v]⟩
  newBlock {_ s t a b} h hab := by
    obtain rfl := optional_eq (fun _ _ h => h) hab
    exact ⟨(), trivial,
      h.change (f := fun s => { s with blocks := s.blocks.push ⟨[], a⟩ }) fun _ _ => rfl,
      h.eq_of (f := (·.blocks.size)) fun _ _ => rfl⟩
  setVariable := by
    rintro _ s t a _ v v' name h rfl hv
    obtain rfl := Variable.eq_of_alike hv
    exact h.change (f := (·.setVariable a name v)) fun _ _ => rfl
  remember := by
    rintro _ s t a _ v v' name h rfl hv
    obtain rfl := Native.eq_of_alike hv
    exact h.change (f := fun s => { s with
      executions := s.executions.modify a fun e => { e with known := (name, v) :: e.known } })
      fun _ _ => rfl
  log line h := h.change (f := fun s => { s with console := s.console.push line }) fun _ _ => rfl
  newEvaluation {_ s t sc sc'} maxDepth h hsc := by
    obtain rfl := Scope.eq_of_alike (fun _ _ => Value.eq_of_alike) hsc
    exact ⟨(), trivial,
      h.change (f := fun s => { s with evaluations := s.evaluations.push ⟨sc, 0, maxDepth⟩ })
        fun _ _ => rfl,
      h.eq_of (f := (·.evaluations.size)) fun _ _ => rfl⟩
  newExecution {_ s t sc sc'} maxDepth h hsc := by
    obtain rfl := Scope.eq_of_alike (fun _ _ => Native.eq_of_alike) hsc
    exact ⟨(), trivial,
      h.change (f := fun s => { s with executions := s.executions.push ⟨sc, [], 0, maxDepth⟩ })
        fun _ _ => rfl,
      h.eq_of (f := (·.executions.size)) fun _ _ => rfl⟩
  busy := by
    rintro _ s t a _ h rfl
    exact h.eq_of (f := (·.busy a)) fun _ _ => rfl
  scriptBusy := by
    rintro _ s t a _ h rfl
    exact h.eq_of (f := (·.scriptBusy a)) fun _ _ => rfl
  countCalls := by
    rintro _ s t a _ f h rfl
    exact h.change (f := (·.countCalls a f)) fun _ _ => rfl
  countScriptCalls := by
    rintro _ s t a _ f h rfl
    exact h.change (f := (·.countScriptCalls a f)) fun _ _ => rfl
  session? {_ s t a b} h hab := optional_imp (fun _ _ hσ => hσ.toAlike)
    (SessionSimulation.filter_alike (fun _ _ hσ => hσ.alive) (h.tied.sessions hab))

/-! ### Sessions -/

/-- Two runs that come to the same in stores that differ in what is compiled. -/
abbrev Rel {α : Type} (x y : Run α) (R : α → α → Prop) : Prop :=
  coupling.Rel () x y fun _ => R

theorem rel_changeSession (place : Nat) {f g : Session → Session}
    (hfg : ∀ σ σ', Session.Recached σ σ' → (f σ).Recached (g σ')) :
    Rel (Run.changeSession place f) (Run.changeSession place g) fun _ _ => True :=
  Coupling.rel_modify fun _ _ h => h.changeSession place hfg

theorem rel_changeModules (place : Nat) (f : Modules → Modules) :
    Rel (Run.changeModules place f) (Run.changeModules place f) fun _ _ => True :=
  Coupling.rel_modify fun _ _ h => h.change (f := (·.changeModules place f)) fun _ _ => rfl

/-- Sessions that have compiled different things compile every text to the same. -/
theorem rel_compiled (place : Nat) {σ σ' : Session} (hσ : σ.Recached σ') (source : Source) :
    Rel (Engine.compiled place σ source) (Engine.compiled place σ' source) Eq := by
  obtain ⟨f, hf, hrun⟩ := Twins.compiled_run place hσ.scripts.1 source
  obtain ⟨g, hg, hrun'⟩ := Twins.compiled_run place hσ.scripts.2 source
  refine ⟨fun s t h => ?_⟩
  rw [hrun, hrun']
  have hchange := h.changeSession place (f := fun σ => { σ with scripts := f σ.scripts })
    (g := fun σ => { σ with scripts := g σ.scripts })
    fun τ τ' hτ => ⟨hτ.same, hf _ hτ.scripts.1, hg _ hτ.scripts.2⟩
  exact ⟨(), trivial, hchange, rfl⟩

/-- The simulation of stores that differ in what is compiled. -/
def simulation : SessionSimulation where
  toSimulation := coupling.simulation
  ties _ := .recached
  ties_within _ := .refl _
  born _ := Eq
  born_mono _ h := h
  born_sessions h := h
  settings h := h
  empty _ := ⟨Script.Cache.valid_empty _, Script.Cache.valid_empty _⟩
  unused := rfl
  count f h := congrArg f h
  look h := ⟨fun s t hi => (h s t hi.tied).ends s t hi⟩
  newThunk {_ x y} h := by
    obtain rfl := Work.eq_of_alike h
    refine ⟨fun s t hi => ⟨(), trivial, hi.change (f := (·.addThunk x)) fun _ _ => rfl, ?_⟩⟩
    exact .lazy (hi.eq_of (f := (·.thunks.size)) fun _ _ => rfl)
  settle := by
    rintro _ a _ v v' rfl h
    obtain rfl := Value.eq_of_alike h
    exact Coupling.rel_modify fun _ _ hi => hi.change (f := (·.settle a v)) fun _ _ => rfl
  changeSession := by
    rintro _ a _ f g rfl hfg - -
    exact rel_changeSession a fun _ _ hσ => .of_tied (hfg _ _ hσ.tied)
  addSession h _ _ := ⟨fun s t hi => ⟨(), trivial, hi.addSession (.of_tied h), hi.size⟩⟩
  release := by
    rintro _ a _ rfl
    exact rel_changeSession a fun _ _ hσ =>
      hσ.change (f := fun σ => { σ with alive := false }) fun _ _ _ => rfl
  keepModule := by
    rintro _ a _ c _ specifier rfl rfl
    exact rel_changeModules a _
  compiled := by
    rintro _ a _ σ σ' source rfl h
    exact rel_compiled a (.of_tied h) source

theorem catches : simulation.Catches :=
  fun hx => Coupling.rel_outcome (fun _ h => h) (fun _ h => h) hx

theorem executes : simulation.Executes := by
  rintro _ a _ x y key rfl - hxy
  refine Coupling.rel_bind (rel_changeSession a fun _ _ hσ =>
    hσ.change (f := fun σ => { σ with inFlight := key :: σ.inFlight }) fun _ _ _ => rfl)
    fun _ _ _ _ _ => ?_
  refine Coupling.rel_bind (hxy () (.refl _) (.refl _)) fun _ _ _ _ ho => ?_
  refine Coupling.rel_bind (SessionSimulation.rel_newResult (S := simulation) ho)
    fun _ _ r r' hr => ?_
  obtain rfl := Result.eq_of_alike hr
  refine Coupling.rel_bind (rel_changeSession a fun _ _ hσ =>
    hσ.change (f := fun σ =>
      { σ with inFlight := σ.inFlight.erase key, results := (key, r) :: σ.results })
      fun _ _ _ => rfl) fun _ _ _ _ _ => ?_
  exact Coupling.rel_pure (.some hr)

theorem loads : simulation.Loads := by
  rintro _ a _ x y specifier rfl - hxy
  refine Coupling.rel_bind (rel_changeModules a _) fun _ _ _ _ _ => ?_
  refine Coupling.rel_bind (hxy () (.refl _)) fun _ _ _ _ hv => ?_
  exact Coupling.rel_bind (rel_changeModules a _) fun _ _ _ _ _ => Coupling.rel_pure hv

theorem serves (fuel : Nat) : simulation.Serves (Engine.ofFuel fuel) (Engine.ofFuel fuel) :=
  SessionSimulation.serves coupling.thorough catches executes loads (.inl rfl)

/-! ### Moving and asking -/

theorem rel_release (place : Nat) : Rel (Run.release place) (Run.release place) fun _ _ => True :=
  simulation.release (w := ()) (a := place) rfl

theorem rel_releaseModules (place : Nat) :
    Rel (Run.releaseModules place) (Run.releaseModules place) fun _ _ => True := by
  have hall (loaded : List (String × Nat)) :
      Rel (loaded.forM fun e => Run.release e.2) (loaded.forM fun e => Run.release e.2)
        fun _ _ => True := by
    induction loaded with
    | nil => exact Coupling.rel_pure trivial
    | cons e loaded ih =>
      exact Coupling.rel_bind (rel_release e.2) fun _ _ _ _ _ => ih
  refine simulation.look fun s t hst => ?_
  have hm := hst.modules (a := place) rfl
  generalize s.modules[place]? = x at hm ⊢
  generalize t.modules[place]? = y at hm ⊢
  cases hm with
  | none => exact Coupling.rel_pure trivial
  | @some m m' hm =>
    obtain rfl := Modules.eq_of_alike hm
    exact Coupling.rel_bind (hall m.loaded) fun _ _ _ _ _ => rel_changeModules place _

theorem rel_setTime (place : Nat) (time : Float) :
    Rel (Run.setTime place time) (Run.setTime place time) fun _ _ => True := by
  refine Coupling.rel_bind (rel_changeSession place fun _ _ hσ =>
    hσ.change (f := fun σ => { σ with time, results := [], folderValues := [], imports := [] })
      fun _ _ _ => rfl) fun _ _ _ _ _ => ?_
  refine simulation.look fun s t hst => ?_
  have hσ := hst.sessions (a := place) rfl
  generalize s.sessions[place]? = x at hσ ⊢
  generalize t.sessions[place]? = y at hσ ⊢
  cases hσ with
  | none => exact Coupling.rel_pure trivial
  | some hσ =>
    simp only [show _ = _ from hσ.modules]
    exact rel_releaseModules _

end Recached
end Store

/-! ## What a session answers and counts -/

/-- What is done with a session. -/
inductive Session.Step
  | ask (q : Query)
  | move (time : Float)

namespace Engine

variable (engine : Engine)

/-- What a session answers to a step; nothing if it is not asked. -/
def take (place : Nat) : Session.Step → Run (Option Answer)
  | .ask q => some <$> engine.reply place q
  | .move time => do
    Run.setTime place time
    return none

/-- Starts a session and does one thing after another with it: what it answers, and what it has
counted by then. -/
def attend (tree : Tree) (options : Options) (time : Float) (steps : List Session.Step) :
    Run (List (Option Answer × Option Stats)) := do
  let place ← Run.newSession tree options time
  steps.mapM fun step => do
    let answer ← engine.take place step
    return (answer, ((← get).sessions[place]?).map (·.stats))

end Engine

/-- Options with another number of scripts that are kept. -/
def Options.withCapacity (options : Options) (capacity : Nat) : Options :=
  { options with settings := { options.settings with cacheCapacity := capacity } }

/-- Two ends of runs with the same answers, in stores that differ in what is compiled only,
unless both runs were given too little fuel. -/
inductive Run.EndsRecached {α : Type} :
    EStateM.Result Stop Store α → EStateM.Result Stop Store α → Prop
  | answered (a : α) {s t : Store} (h : s.Recached t) : EndsRecached (.ok a s) (.ok a t)
  | exhausted {s t : Store} : EndsRecached (.error .exhausted s) (.error .exhausted t)

theorem Answer.eq_of_alike {a b : Answer} : Answer.Alike .same a b → a = b
  | .result h => congrArg Answer.result (optional_eq (fun _ _ => Result.eq_of_alike) h)
  | .results h => congrArg Answer.results (Keyed.eq_of_forall (fun _ _ => Result.eq_of_alike) h)
  | .value h => congrArg Answer.value (Value.eq_of_alike h)
  | .entry h => congrArg Answer.entry (optional_eq (fun _ _ => Value.eq_of_alike) h)

namespace Store.Recached

variable (fuel place : Nat)

theorem rel_take (step : Session.Step) :
    Rel ((Engine.ofFuel fuel).take place step) ((Engine.ofFuel fuel).take place step) Eq := by
  cases step with
  | ask q =>
    have hreply := SessionSimulation.rel_reply serves fuel (w := ()) (a := place) rfl q
    exact Simulation.Rel.map hreply fun _ _ a b hab => congrArg some (Answer.eq_of_alike hab)
  | move time => exact Coupling.rel_bind (rel_setTime place time) fun _ _ _ _ _ => Coupling.rel_pure rfl

theorem rel_stats {α : Type} (a : α) :
    Rel (do return (a, ((← get).sessions[place]?).map (·.stats)))
      (do return (a, ((← get).sessions[place]?).map (·.stats))) Eq := by
  refine simulation.look fun s t hst => Coupling.rel_pure ?_
  have hσ := hst.sessions (a := place) rfl
  exact congrArg (Prod.mk a) (optional_eq (fun _ _ h => h) (optional_map hσ fun _ _ hσ => hσ.stats))

theorem rel_steps (steps : List Session.Step) :
    Rel
      (steps.mapM fun step => do
        let answer ← (Engine.ofFuel fuel).take place step
        return (answer, ((← get).sessions[place]?).map (·.stats)))
      (steps.mapM fun step => do
        let answer ← (Engine.ofFuel fuel).take place step
        return (answer, ((← get).sessions[place]?).map (·.stats))) Eq := by
  induction steps with
  | nil => exact Coupling.rel_pure rfl
  | cons step steps ih =>
    rw [List.mapM_cons]
    refine Coupling.rel_bind (R := fun _ => Eq) ?_ fun _ _ a b hab => ?_
    · refine Coupling.rel_bind (rel_take fuel place step) fun _ _ a b hab => ?_
      obtain rfl := hab
      exact rel_stats place a
    · obtain rfl := hab
      refine Coupling.rel_bind ih fun _ _ as bs habs => ?_
      obtain rfl := habs
      exact Coupling.rel_pure rfl

end Store.Recached

/-! ### Steps never fail -/

namespace Run

theorem total_releaseModules (place : Nat) : (releaseModules place).Total := by
  have hall (loaded : List (String × Nat)) : (loaded.forM fun e => release e.2).Total := by
    induction loaded with
    | nil => exact total_pure _
    | cons e loaded ih => exact (total_modify _).bind fun _ => ih
  refine total_get fun s => ?_
  split
  · exact (hall _).bind fun _ => total_modify _
  · exact total_pure _

theorem total_setTime (place : Nat) (time : Float) : (setTime place time).Total := by
  refine (total_modify _).bind fun _ => total_get fun s => ?_
  split
  · exact total_releaseModules _
  · exact total_pure _

end Run

namespace Engine

theorem Total.take {e : Engine} (he : e.Total) (place : Nat) (step : Session.Step) :
    (e.take place step).Total := by
  cases step with
  | ask q => exact (he.reply place q).map _
  | move time => exact (Run.total_setTime place time).bind fun _ => Run.total_pure _

theorem Total.attend {e : Engine} (he : e.Total) (tree : Tree) (options : Options) (time : Float)
    (steps : List Session.Step) : (e.attend tree options time steps).Total := by
  refine Run.Total.bind ⟨fun s f s' h => ?_⟩ fun place =>
    Run.total_mapM (fun step => (he.take place step).bind fun _ => ?_) steps
  · rw [Run.newSession_run] at h
    cases h
  · exact Run.total_get fun s => Run.total_pure _

end Engine

/-! ## The capacity is unseen -/

/-- Sessions that are started with different capacities differ in nothing else. -/
theorem Store.recached_opened {s : Store} (h : ∀ σ ∈ s.sessions, σ.scripts.Valid) (tree : Tree)
    (options : Options) (m n : Nat) (time : Float) :
    (s.opened tree (options.withCapacity m) time).Recached
      (s.opened tree (options.withCapacity n) time) := by
  have hmodules := (Recached.refl h).change (f := fun s =>
    { s with
      modules := s.modules.push ⟨true, options.registry, [], []⟩
      fresh := s.fresh + Formula.libraryCodes.length + Formula.mathCodes.length }) fun _ _ => rfl
  exact hmodules.addSession ⟨rfl, Script.Cache.valid_empty m, Script.Cache.valid_empty n⟩

/-- Runs that come to the same and do not fail. -/
theorem Run.EndsRecached.of_ends {α : Type} {r r' : EStateM.Result Stop Store α}
    (h : Store.Recached.coupling.Ends () (fun _ => Eq) r r')
    (total : ∀ f s, r ≠ .error (.failed f) s) : EndsRecached r r' := by
  match r, r', h with
  | .ok a s, .ok b t, ⟨_, _, hst, hab⟩ =>
    obtain rfl : a = b := hab
    exact .answered a hst
  | .error (.failed f) s, .error (.failed g) t, _ => exact absurd rfl (total f s)
  | .error .exhausted s, .error .exhausted t, _ => exact .exhausted
  | .error .exhausted s, .ok b t, hv => exact hv.elim
  | .error .exhausted s, .error (.failed g) t, hf => exact hf.elim
  | .ok a s, .error .exhausted t, hv => exact hv.elim
  | .error (.failed f) s, .error .exhausted t, hf => exact hf.elim

/-- What a session answers and counts, whatever is asked and however often it is moved, does not
depend on how many compiled scripts are kept.  Of these a cache keeps the last ones that it took,
one for each text: each under the text that it was put in under, so under the one that it was
compiled from, if all that were put in were. -/
theorem capacity_is_unseen {s : Store} (h : ∀ σ ∈ s.sessions, σ.scripts.Valid) (tree : Tree)
    (options : Options) (m n : Nat) (time : Float) (steps : List Session.Step) (fuel : Nat)
    (accesses : List Script.Cache.Access) :
    Run.EndsRecached
      ((Engine.ofFuel fuel).attend tree (options.withCapacity m) time steps s)
      ((Engine.ofFuel fuel).attend tree (options.withCapacity n) time steps s) ∧
    let cache := accesses.foldl Script.Cache.after (.empty m)
    cache.size ≤ m ∧ (cache.entries.map (·.1)).Nodup ∧
      (∀ e ∈ cache.entries, .insert e.1 e.2 ∈ accesses) ∧
      ((∀ text p, .insert text p ∈ accesses → ∀ path, Script.compile ⟨path, text⟩ = .ok p) →
        cache.Valid) ∧
      cache.entries = Script.Cache.latest m (accesses.foldl (Script.Cache.logged m) []) := by
  constructor
  · have htotal := (Engine.total_ofFuel fuel).attend tree (options.withCapacity m) time steps
    have hends := htotal.ends s
    unfold Engine.attend at hends ⊢
    rw [Run.bind_run (Run.newSession_run ..)] at hends ⊢
    rw [Run.bind_run (Run.newSession_run ..)]
    exact .of_ends ((Store.Recached.rel_steps fuel s.sessions.size steps).ends _ _
      (s.recached_opened h tree options m n time)) hends
  · have hentries := Script.Cache.entries_after m accesses
    have hput : ∀ e ∈ (accesses.foldl Script.Cache.after (.empty m)).entries,
        .insert e.1 e.2 ∈ accesses := by
      intro e he
      rw [hentries] at he
      have hlog := Script.Cache.mem_logged accesses (List.mem_of_mem_drop he)
      simpa using hlog
    refine ⟨?_, ?_, hput, fun hcompiled e he => hcompiled e.1 e.2 (hput e he), hentries⟩
    · simp only [Script.Cache.size, hentries]
      exact Script.Cache.length_latest m _
    · rw [hentries]
      exact Script.Cache.nodup_after m accesses

/-! ## Two scripts with one text -/

/-- A workbook with two scripts that have the same text. -/
def likeScripts : Tree :=
  ⟨[("", some [⟨.expression, "a", 1, some .script⟩, ⟨.expression, "b", 2, some .script⟩])],
    [("a", some "return [1]"), ("b", some "return [1]")], 2⟩

theorem ofTree_likeScripts : Outline.ofTree likeScripts =
    ⟨[Outline.root], [⟨"a", "a", ["a"], .script, 1, ""⟩, ⟨"b", "b", ["b"], .script, 2, ""⟩]⟩ :=
  (Outline.ofTree_of_expressions rfl (by decide) rfl).trans rfl

/-- Both scripts, one before and one after the session is moved. -/
def likeSteps : List Session.Step :=
  [.ask (.expression "a"), .move 1, .ask (.expression "b")]

theorem likeScripts_run :
    (match (Engine.ofFuel 8).attend likeScripts (Options.withCapacity ⟨.standard, [], []⟩ 1) 0
        likeSteps .empty with
      | .ok _ s => (s.sessions[0]?).map (·.scripts.size)
      | _ => none) = some 1 := by
  have ha : pathKey "a" = "a" := pathKey_of_name (by decide) (by decide)
  have hb : pathKey "b" = "b" := pathKey_of_name (by decide) (by decide)
  unfold Engine.attend
  rw [Run.bind_run (Run.newSession_run ..)]
  unfold Store.opened Store.opening Session.start
  rw [ofTree_likeScripts]
  simp only [likeSteps, List.mapM_cons, List.mapM_nil, Engine.take, Engine.reply, ha, hb]
  decide +kernel

/-- With room for one script the second is found, with room for none it is compiled again. -/
theorem likeScripts_answer_alike : (∀ σ ∈ Store.empty.sessions, σ.scripts.Valid) ∧
    ∃ answers s t,
      (Engine.ofFuel 8).attend likeScripts (Options.withCapacity ⟨.standard, [], []⟩ 1) 0 likeSteps
        .empty = .ok answers s ∧
      (Engine.ofFuel 8).attend likeScripts (Options.withCapacity ⟨.standard, [], []⟩ 0) 0 likeSteps
        .empty = .ok answers t ∧ s.Recached t := by
  have hempty : ∀ σ ∈ Store.empty.sessions, σ.scripts.Valid := by simp [Store.empty]
  obtain ⟨hends, -⟩ :=
    capacity_is_unseen hempty likeScripts ⟨.standard, [], []⟩ 1 0 0 likeSteps 8 []
  have hrun := likeScripts_run
  refine ⟨hempty, ?_⟩
  revert hends hrun
  generalize (Engine.ofFuel 8).attend likeScripts (Options.withCapacity ⟨.standard, [], []⟩ 1) 0
    likeSteps .empty = r
  generalize (Engine.ofFuel 8).attend likeScripts (Options.withCapacity ⟨.standard, [], []⟩ 0) 0
    likeSteps .empty = r'
  intro hends hrun
  cases hends with
  | answered answers hst => exact ⟨answers, _, _, rfl, rfl, hst⟩
  | exhausted => cases hrun

end Workbook
