/-
Modules are loaded once.

While a session is asked, further sessions are made for the modules that it imports, and that
these import in turn.  `Store.Proceeds` says what becomes of all sessions meanwhile.  A module
that was loaded stays loaded, so that no second session is made for it, and every session executes
each of its expressions at most once.  A module whose root failed is not kept, however: its
session is let go of, and the next import makes another one that executes everything again;
`failing_module_runs_twice` is an example.
-/
import Mathlib
import Workbook.Proofs.Course
import Workbook.Proofs.Outline.Crawl

namespace Workbook

/-! ## Sessions and modules later on -/

namespace Session

/-- Every execution has been counted, and no two were of one expression. -/
structure Orderly (σ : Session) : Prop where
  executions : σ.stats.executions = σ.begun.length
  nodup : σ.begun.Nodup
  known : ∀ key ∈ σ.begun, (σ.outline.expression? key).isSome

/-- A session later on, when it is executing what it was executing then. -/
structure Continues (σ σ' : Session) : Prop where
  alive : σ'.alive = σ.alive
  tree : σ'.tree = σ.tree
  outline : σ'.outline = σ.outline
  modules : σ'.modules = σ.modules
  inFlight : σ'.inFlight = σ.inFlight
  results : σ.results <:+ σ'.results
  orderly : σ.Orderly → σ'.Orderly

theorem Continues.refl (σ : Session) : σ.Continues σ :=
  ⟨rfl, rfl, rfl, rfl, rfl, List.suffix_refl _, id⟩

theorem Continues.trans {σ τ υ : Session} (h : σ.Continues τ) (h' : τ.Continues υ) :
    σ.Continues υ where
  alive := h'.alive.trans h.alive
  tree := h'.tree.trans h.tree
  outline := h'.outline.trans h.outline
  modules := h'.modules.trans h.modules
  inFlight := h'.inFlight.trans h.inFlight
  results := h.results.trans h'.results
  orderly ho := h'.orderly (h.orderly ho)

theorem continues_of_core {σ σ' : Session} (h : σ'.core = σ.core) : σ.Continues σ' := by
  have alive : σ'.core.alive = σ.core.alive := by rw [h]
  have tree : σ'.core.tree = σ.core.tree := by rw [h]
  have outline : σ'.core.outline = σ.core.outline := by rw [h]
  have modules : σ'.core.modules = σ.core.modules := by rw [h]
  have inFlight : σ'.core.inFlight = σ.core.inFlight := by rw [h]
  have results : σ'.core.results = σ.core.results := by rw [h]
  have executions : σ'.stats.executions = σ.stats.executions :=
    congrArg (·.stats.executions) h
  have begun : σ'.begun = σ.begun := congrArg₂ (fun ks rs => ks ++ rs.map (·.1)) inFlight results
  refine ⟨alive, tree, outline, modules, inFlight, results ▸ List.suffix_refl _, fun ho => ?_⟩
  constructor
  · rw [begun, ← ho.executions]
    exact executions
  · rw [begun]
    exact ho.nodup
  · intro key hkey
    rw [show σ'.outline = σ.outline from outline]
    exact ho.known key (begun ▸ hkey)

theorem begun_of_inFlight {σ : Session} (h : σ.inFlight = []) :
    σ.begun = σ.results.map (·.1) := by
  unfold begun
  rw [h, List.nil_append]

/-- While nothing is in flight, an orderly session has executed everything once. -/
theorem orderly_iff_once {σ : Session} (h : σ.inFlight = []) : σ.Orderly ↔ σ.Once := by
  have hbegun := begun_of_inFlight h
  constructor
  · intro ho
    refine ⟨h, ?_, hbegun ▸ ho.nodup, hbegun ▸ ho.known⟩
    rw [ho.executions, hbegun, List.length_map]
  · intro ho
    refine ⟨?_, hbegun ▸ ho.nodup, hbegun ▸ ho.known⟩
    rw [ho.executions, hbegun, List.length_map]

/-- The session that executes one expression more. -/
def counted (σ : Session) (key : String) : Session :=
  { σ with
    inFlight := key :: σ.inFlight
    stats := { σ.stats with executions := σ.stats.executions + 1 } }

/-- The session once it has executed it. -/
def finished (σ : Session) (key : String) (r : Result) : Session :=
  { σ with inFlight := σ.inFlight.erase key, results := (key, r) :: σ.results }

theorem Orderly.counted {σ : Session} (h : σ.Orderly) {key : String}
    (known : (σ.outline.expression? key).isSome) (result : σ.results.lookup key = none)
    (inFlight : key ∉ σ.inFlight) : (σ.counted key).Orderly := by
  have hnew : key ∉ σ.begun := by
    intro hmem
    rcases List.mem_append.1 hmem with hmem | hmem
    · exact inFlight hmem
    · obtain ⟨e, he, rfl⟩ := List.mem_map.1 hmem
      have hsome := List.lookup_eq_none_iff.1 result e he
      simp at hsome
  constructor
  · show σ.stats.executions + 1 = (key :: σ.begun).length
    rw [h.executions, List.length_cons]
  · exact List.nodup_cons.2 ⟨hnew, h.nodup⟩
  · intro key' hkey'
    rcases List.mem_cons.1 hkey' with rfl | hkey'
    · exact known
    · exact h.known key' hkey'

/-- An expression that is finished has a result instead of being in flight. -/
theorem Orderly.finished {σ : Session} (h : σ.Orderly) {key : String}
    (inFlight : key ∈ σ.inFlight) (r : Result) : (σ.finished key r).Orderly := by
  have hperm : List.Perm (σ.inFlight.erase key ++ key :: σ.results.map (·.1)) σ.begun := by
    refine List.perm_middle.trans ?_
    rw [← List.cons_append]
    exact (List.perm_cons_erase inFlight).symm.append_right _
  constructor
  · show σ.stats.executions = (σ.inFlight.erase key ++ key :: σ.results.map (·.1)).length
    rw [h.executions, hperm.length_eq]
  · exact hperm.nodup_iff.2 h.nodup
  · intro key' hkey'
    exact h.known key' (hperm.mem_iff.1 hkey')

/-- The execution of an expression that had not been begun. -/
theorem Continues.executing {σ τ : Session} {key : String}
    (known : (σ.outline.expression? key).isSome) (result : σ.results.lookup key = none)
    (inFlight : key ∉ σ.inFlight)
    (h : (σ.counted key).Continues τ) (r : Result) : σ.Continues (τ.finished key r) where
  alive := h.alive
  tree := h.tree
  outline := h.outline
  modules := h.modules
  inFlight := by
    have hτ : τ.inFlight = key :: σ.inFlight := h.inFlight
    show τ.inFlight.erase key = σ.inFlight
    rw [hτ, List.erase_cons_head]
  results := h.results.trans (List.suffix_cons _ _)
  orderly ho := by
    have hmem : key ∈ τ.inFlight := by
      rw [h.inFlight]
      exact List.mem_cons_self
    exact (h.orderly (ho.counted known result inFlight)).finished hmem r

/-- An expression that stands for the root has a failure for a result. -/
def RootFailed (σ : Session) : Prop :=
  ∃ key ∈ Engine.sentinels.map (childKey ""), ∃ r f, (key, r) ∈ σ.results ∧
    Import.checked r.outcome.toValue = .error f

theorem Continues.rootFailed {σ σ' : Session} (h : σ.Continues σ') (hf : σ.RootFailed) :
    σ'.RootFailed := by
  obtain ⟨key, hkey, r, f, hr, hf⟩ := hf
  exact ⟨key, hkey, r, f, h.results.subset hr, hf⟩

end Session

namespace Modules

/-- Modules later on: what was loaded is still loaded, and what is being loaded is not loaded by
anyone else. -/
structure Continues (m m' : Modules) : Prop where
  alive : m'.alive = m.alive
  registry : m'.registry = m.registry
  loading : m'.loading = m.loading
  loaded : ∀ {specifier place}, m.loaded.lookup specifier = some place →
    m'.loaded.lookup specifier = some place
  reserved : ∀ specifier ∈ m.loading, m'.loaded.lookup specifier = m.loaded.lookup specifier

theorem Continues.refl (m : Modules) : m.Continues m :=
  ⟨rfl, rfl, rfl, id, fun _ _ => rfl⟩

theorem Continues.trans {m m' m'' : Modules} (h : m.Continues m') (h' : m'.Continues m'') :
    m.Continues m'' where
  alive := h'.alive.trans h.alive
  registry := h'.registry.trans h.registry
  loading := h'.loading.trans h.loading
  loaded hl := h'.loaded (h.loaded hl)
  reserved specifier hs :=
    (h'.reserved specifier (h.loading ▸ hs)).trans (h.reserved specifier hs)

variable {m m' : Modules} {specifier : String}

/-- The computation of a module. -/
theorem Continues.leave (h : Continues { m with loading := specifier :: m.loading } m') :
    m.Continues { m' with loading := m'.loading.erase specifier } where
  alive := h.alive
  registry := h.registry
  loading := by
    show m'.loading.erase specifier = m.loading
    rw [h.loading, List.erase_cons_head]
  loaded := h.loaded
  reserved other hs := h.reserved other (List.mem_cons_of_mem _ hs)

/-- A module is loaded that was not loaded. -/
theorem Continues.load (h : m.Continues m') (loaded : m.loaded.lookup specifier = none)
    (loading : specifier ∉ m.loading) (place : Nat) :
    m.Continues { m' with loaded := Keyed.put specifier place m'.loaded } where
  alive := h.alive
  registry := h.registry
  loading := h.loading
  loaded {other place'} hl := by
    have hne : other ≠ specifier := by
      rintro rfl
      rw [loaded] at hl
      cases hl
    exact (Keyed.lookup_put_of_ne hne _ _).trans (h.loaded hl)
  reserved other hs := by
    have hne : other ≠ specifier := by
      rintro rfl
      exact loading hs
    exact (Keyed.lookup_put_of_ne hne _ _).trans (h.reserved other hs)

end Modules

namespace Store

/-- A session of the module under a specifier.  It has executed each expression at most once, and
the module is loaded as this session unless its root failed. -/
structure Hosts (s : Store) (place : Nat) (specifier : String) (σ : Session) : Prop where
  once : σ.Once
  outline : σ.outline = .ofTree σ.tree
  module : ∃ m, s.modules[σ.modules]? = some m ∧ m.registry.lookup specifier = some σ.tree ∧
    (σ.alive = true → m.loaded.lookup specifier = some place)
  failed : σ.alive = false → σ.RootFailed

/-- A store later on: sessions and modules continue, and all new sessions are those of
modules. -/
structure Proceeds (s s' : Store) : Prop where
  sessions : ∀ {n : Nat} {σ : Session}, s.sessions[n]? = some σ →
    ∃ σ', s'.sessions[n]? = some σ' ∧ σ.Continues σ'
  modules : ∀ {n : Nat} {m : Modules}, s.modules[n]? = some m →
    ∃ m', s'.modules[n]? = some m' ∧ m.Continues m'
  made : ∀ {n : Nat} {σ : Session}, s.sessions.size ≤ n → s'.sessions[n]? = some σ →
    ∃ specifier, s'.Hosts n specifier σ

/-- A module's session is still the module's later on. -/
theorem Hosts.later {s s' : Store} {place : Nat} {specifier : String} {σ σ' : Session}
    (h : s.Hosts place specifier σ) (hσ : σ.Continues σ') (hm : ∀ {n : Nat} {m : Modules}, s.modules[n]? = some m →
      ∃ m', s'.modules[n]? = some m' ∧ m.registry = m'.registry ∧
        ∀ {specifier place}, m.loaded.lookup specifier = some place →
          m'.loaded.lookup specifier = some place) :
    s'.Hosts place specifier σ' := by
  obtain ⟨m, hmodules, hregistry, hloaded⟩ := h.module
  obtain ⟨m', hmodules', hregistry', hloaded'⟩ := hm hmodules
  have inFlight := h.once.inFlight
  constructor
  · have horderly := hσ.orderly ((Session.orderly_iff_once inFlight).2 h.once)
    exact (Session.orderly_iff_once (hσ.inFlight.trans inFlight)).1 horderly
  · rw [hσ.outline, hσ.tree, h.outline]
  · refine ⟨m', ?_, ?_, fun halive => ?_⟩
    · rw [hσ.modules, hmodules']
    · rw [hσ.tree, ← hregistry', hregistry]
    · exact hloaded' (hloaded (hσ.alive ▸ halive))
  · intro halive
    exact hσ.rootFailed (h.failed (hσ.alive ▸ halive))

namespace Proceeds

variable {s t u : Store}

theorem size_le (h : s.Proceeds t) : s.sessions.size ≤ t.sessions.size := by
  by_cases hs : s.sessions.size = 0
  · omega
  · have hlt : s.sessions.size - 1 < s.sessions.size := by omega
    obtain ⟨σ, hσ, -⟩ := h.sessions (Array.getElem?_eq_getElem hlt)
    have hlt' := (Array.getElem?_eq_some_iff.1 hσ).1
    omega

theorem unchanged {s s' : Store} (sessions : s'.sessions = s.sessions)
    (modules : s'.modules = s.modules) : s.Proceeds s' where
  sessions {n σ} hσ := ⟨σ, sessions ▸ hσ, .refl σ⟩
  modules {n m} hm := ⟨m, modules ▸ hm, .refl m⟩
  made {n σ} hn hσ := by
    have hlt := (Array.getElem?_eq_some_iff.1 hσ).1
    rw [sessions] at hlt
    omega

theorem refl (s : Store) : s.Proceeds s :=
  unchanged rfl rfl

theorem trans (h : s.Proceeds t) (h' : t.Proceeds u) : s.Proceeds u where
  sessions hσ := by
    obtain ⟨τ, hτ, hστ⟩ := h.sessions hσ
    obtain ⟨υ, hυ, hτυ⟩ := h'.sessions hτ
    exact ⟨υ, hυ, hστ.trans hτυ⟩
  modules hm := by
    obtain ⟨m', hm', hmm'⟩ := h.modules hm
    obtain ⟨m'', hm'', hmm''⟩ := h'.modules hm'
    exact ⟨m'', hm'', hmm'.trans hmm''⟩
  made {n υ} hn hυ := by
    by_cases hnt : t.sessions.size ≤ n
    · exact h'.made hnt hυ
    · have hτ : t.sessions[n]? = some _ := Array.getElem?_eq_getElem (Nat.lt_of_not_le hnt)
      obtain ⟨υ', hυ', hτυ⟩ := h'.sessions hτ
      obtain rfl : υ' = υ := Option.some.inj (hυ'.symm.trans hυ)
      obtain ⟨specifier, hhosts⟩ := h.made hn hτ
      refine ⟨specifier, hhosts.later hτυ fun hm => ?_⟩
      obtain ⟨m', hm', hmm'⟩ := h'.modules hm
      exact ⟨m', hm', hmm'.registry.symm, hmm'.loaded⟩

theorem changeSession (s : Store) (place : Nat) {f : Session → Session}
    (h : ∀ σ, s.sessions[place]? = some σ → σ.Continues (f σ)) :
    s.Proceeds (s.changeSession place f) where
  sessions {n σ} hσ := by
    by_cases hn : place = n
    · subst hn
      exact ⟨f σ, by simp [Store.changeSession, Array.getElem?_modify, hσ], h σ hσ⟩
    · exact ⟨σ, by simp [Store.changeSession, Array.getElem?_modify, hn, hσ], .refl σ⟩
  modules {n m} hm := ⟨m, hm, .refl m⟩
  made {n σ} hn hσ := by
    have hlt := (Array.getElem?_eq_some_iff.1 hσ).1
    simp only [Store.changeSession, Array.size_modify] at hlt
    omega

end Proceeds

/-- The course of sessions and modules. -/
def proceeding : Course where
  Goes := Proceeds
  refl := .refl
  trans := .trans
  unchanged := .unchanged
  minor s place _ h := .changeSession s place fun σ _ => Session.continues_of_core (h σ)

end Store

namespace Store

variable {s s₂ s₃ s₄ : Store}

/-! ## Executing -/

/-- The store in which an execution has begun and is counted. -/
def counted (s : Store) (place : Nat) (key : String) : Store :=
  (Accord.begun s place key).changeSession place fun σ =>
    { σ with stats := { σ.stats with executions := σ.stats.executions + 1 } }

theorem getElem?_counted (s : Store) (place : Nat) (key : String) (n : Nat) :
    (s.counted place key).sessions[n]? =
      if place = n then (s.sessions[n]?).map (·.counted key) else s.sessions[n]? := by
  simp only [counted, Accord.begun, Store.changeSession, Array.getElem?_modify]
  by_cases hn : place = n
  · simp only [if_pos hn, Option.map_map]
    rfl
  · simp only [if_neg hn]

theorem getElem?_finished (s : Store) (place : Nat) (key : String) (r : Result) (n : Nat) :
    (Accord.finished (Accord.numbered s) place key r).sessions[n]? =
      if place = n then (s.sessions[n]?).map (·.finished key r) else s.sessions[n]? :=
  Array.getElem?_modify

theorem Proceeds.executing {place : Nat} {key : String} {σ : Session}
    (hσ : s.sessions[place]? = some σ) (known : (σ.outline.expression? key).isSome)
    (result : σ.results.lookup key = none) (inFlight : key ∉ σ.inFlight)
    (h : (s.counted place key).Proceeds s₂) (r : Result) :
    s.Proceeds (Accord.finished (Accord.numbered s₂) place key r) where
  sessions {n τ} hτ := by
    have hcounted := getElem?_counted s place key n
    rw [getElem?_finished]
    by_cases hn : place = n
    · subst hn
      obtain rfl : σ = τ := Option.some.inj (hσ.symm.trans hτ)
      rw [if_pos rfl, hσ] at hcounted
      obtain ⟨υ, hυ, hσυ⟩ := h.sessions hcounted
      rw [if_pos rfl, hυ]
      exact ⟨υ.finished key r, rfl, hσυ.executing known result inFlight r⟩
    · rw [if_neg hn] at hcounted ⊢
      exact h.sessions (hcounted.trans hτ)
  modules hm := h.modules hm
  made {n τ} hn hτ := by
    have hplace := (Array.getElem?_eq_some_iff.1 hσ).1
    have hne : place ≠ n := by omega
    have hsize : (s.counted place key).sessions.size = s.sessions.size := by
      simp [counted, Accord.begun, Store.changeSession]
    rw [getElem?_finished, if_neg hne] at hτ
    obtain ⟨specifier, hhosts⟩ := h.made (hsize ▸ hn) hτ
    exact ⟨specifier, hhosts.later (.refl τ) fun {n m} hm => ⟨m, hm, rfl, id⟩⟩

theorem proceeding_executes : proceeding.Executes := by
  intro s place key σ x y hσ hx hr hk ht hy s' hs'
  have hcount : Run.count place (fun c => { c with executions := c.executions + 1 })
      (Accord.begun s place key) = .ok () (s.counted place key) := rfl
  have hrun := Accord.executing_run place key
    (Run.count place (fun c => { c with executions := c.executions + 1 }) >>= fun _ => y) s
  rw [Run.bind_run hcount] at hrun
  cases hy' : y (s.counted place key) with
  | ok o s₂ =>
    rw [hy'] at hrun
    have hgoes : (s.counted place key).Proceeds s₂ := hy _ _ (.value hy')
    have hdone := hgoes.executing hσ (by rw [hx]; rfl) hr hk ⟨s₂.fresh, o⟩
    cases hs' with
    | value h =>
      cases hrun.symm.trans h
      exact hdone
    | failure h => cases hrun.symm.trans h
  | error e s₂ =>
    rw [hy'] at hrun
    cases hs' with
    | value h => cases hrun.symm.trans h
    | failure h =>
      cases hrun.symm.trans h
      exact absurd hy' (ht.ends _ _ _)

/-! ## Loading -/

/-- From the store `s` to the store `t`, a module that was neither loaded nor being loaded is
computed in the new session `σ`, which is made in the store `s₁`. -/
structure Computes (s s₁ t : Store) (m : Modules) (specifier : String) (σ : Session) : Prop where
  module : s.modules[σ.modules]? = some m
  registry : m.registry.lookup specifier = some σ.tree
  loaded : m.loaded.lookup specifier = none
  loading : specifier ∉ m.loading
  fresh : σ.Fresh
  outline : σ.outline = .ofTree σ.tree
  sessions : s₁.sessions = s.sessions.push σ
  modules : s₁.modules = s.modules
  goes : (Accord.entered s₁ σ.modules specifier).Proceeds t

namespace Computes

variable {s s₁ t : Store} {m : Modules} {specifier : String} {σ : Session}
  (h : s.Computes s₁ t m specifier σ)
include h

theorem entered (n : Nat) : (Accord.entered s₁ σ.modules specifier).modules[n]? =
    if σ.modules = n then
      (s.modules[n]?).map fun m => { m with loading := specifier :: m.loading }
    else s.modules[n]? := by
  rw [← h.modules]
  exact Array.getElem?_modify

/-- The module afterwards. -/
theorem module_after : ∃ m', t.modules[σ.modules]? = some m' ∧
    Modules.Continues { m with loading := specifier :: m.loading } m' := by
  refine h.goes.modules ((h.entered σ.modules).trans ?_)
  rw [if_pos rfl, h.module]
  rfl

/-- The new session afterwards. -/
theorem session_after : ∃ τ, t.sessions[s.sessions.size]? = some τ ∧ σ.Continues τ := by
  refine h.goes.sessions ?_
  show s₁.sessions[s.sessions.size]? = some σ
  rw [h.sessions]
  exact Array.getElem?_push_size

/-- Once the module has been computed, it and its session are changed and nothing else is. -/
theorem proceeds {u : Store} {f : Modules → Modules}
    (sessions : ∀ n, n ≠ s.sessions.size → u.sessions[n]? = t.sessions[n]?)
    (modules : ∀ n : Nat, u.modules[n]? =
      if σ.modules = n then (t.modules[n]?).map f else t.modules[n]?)
    (continues : ∀ {m'}, Modules.Continues { m with loading := specifier :: m.loading } m' →
      m.Continues (f m') ∧
        ∀ {other n}, m'.loaded.lookup other = some n → (f m').loaded.lookup other = some n)
    (hosts : ∀ {τ : Session}, u.sessions[s.sessions.size]? = some τ →
      u.Hosts s.sessions.size specifier τ) :
    s.Proceeds u := by
  obtain ⟨m', hm', hmm'⟩ := h.module_after
  obtain ⟨hcontinues, hloaded⟩ := continues hmm'
  have hsize : (Accord.entered s₁ σ.modules specifier).sessions.size = s.sessions.size + 1 := by
    show s₁.sessions.size = _
    rw [h.sessions, Array.size_push]
  constructor
  · intro n τ hτ
    have hlt := (Array.getElem?_eq_some_iff.1 hτ).1
    rw [sessions n (by omega)]
    refine h.goes.sessions ?_
    show s₁.sessions[n]? = some τ
    rw [h.sessions, Store.push_getElem? hτ]
  · intro n k hk
    by_cases hn : σ.modules = n
    · subst hn
      obtain rfl : m = k := Option.some.inj (h.module.symm.trans hk)
      refine ⟨f m', ?_, hcontinues⟩
      rw [modules, if_pos rfl, hm']
      rfl
    · rw [modules, if_neg hn]
      refine h.goes.modules ((h.entered n).trans ?_)
      rw [if_neg hn, hk]
  · intro n τ hn hτ
    by_cases hnew : n = s.sessions.size
    · subst hnew
      exact ⟨specifier, hosts hτ⟩
    · rw [sessions n hnew] at hτ
      obtain ⟨other, hhosts⟩ := h.goes.made (by omega) hτ
      refine ⟨other, hhosts.later (.refl τ) fun {i k} hk => ?_⟩
      by_cases hi : σ.modules = i
      · subst hi
        obtain rfl : m' = k := Option.some.inj (hm'.symm.trans hk)
        refine ⟨f m', ?_, ?_, hloaded⟩
        · rw [modules, if_pos rfl, hm']
          rfl
        · rw [hcontinues.registry]
          exact hmm'.registry
      · refine ⟨k, ?_, rfl, id⟩
        rw [modules, if_neg hi, hk]

/-- The session belongs to the module, be it kept or not. -/
theorem hosts {u : Store} {k : Modules} {τ : Session} (hτ : σ.Continues τ)
    (hk : u.modules[σ.modules]? = some k) (registry : k.registry = m.registry) {alive : Bool}
    (loaded : alive = true → k.loaded.lookup specifier = some s.sessions.size)
    (failed : alive = false → τ.RootFailed) :
    u.Hosts s.sessions.size specifier { τ with alive := alive } := by
  have hbegun : σ.begun = [] := by
    unfold Session.begun
    rw [h.fresh.inFlight, h.fresh.results]
    rfl
  have horderly : σ.Orderly := by
    constructor
    · rw [h.fresh.stats, hbegun]
      rfl
    · rw [hbegun]
      exact List.nodup_nil
    · intro key hkey
      rw [hbegun] at hkey
      exact absurd hkey List.not_mem_nil
  have honce : τ.Once :=
    (Session.orderly_iff_once (hτ.inFlight.trans h.fresh.inFlight)).1 (hτ.orderly horderly)
  constructor
  · exact ⟨honce.inFlight, honce.executions, honce.nodup, honce.known⟩
  · show τ.outline = .ofTree τ.tree
    rw [hτ.outline, hτ.tree, h.outline]
  · refine ⟨k, ?_, ?_, loaded⟩
    · rw [← hk, ← hτ.modules]
    · rw [registry, h.registry, ← hτ.tree]
  · exact failed

/-- The module is loaded as the new session. -/
theorem kept : s.Proceeds ((Accord.left t σ.modules specifier).changeModules σ.modules fun m =>
    { m with loaded := Keyed.put specifier s.sessions.size m.loaded }) := by
  have hmodules (n : Nat) :
      ((Accord.left t σ.modules specifier).changeModules σ.modules fun m =>
        { m with loaded := Keyed.put specifier s.sessions.size m.loaded }).modules[n]? =
      if σ.modules = n then (t.modules[n]?).map fun m =>
        { m with
          loaded := Keyed.put specifier s.sessions.size m.loaded
          loading := m.loading.erase specifier }
      else t.modules[n]? := by
    simp only [Accord.left, Store.changeModules, Array.getElem?_modify]
    by_cases hn : σ.modules = n
    · simp only [if_pos hn, Option.map_map]
      rfl
    · simp only [if_neg hn]
  obtain ⟨m', hm', hmm'⟩ := h.module_after
  obtain ⟨τ, hτ, hστ⟩ := h.session_after
  have hput {m' : Modules} (hmm' : Modules.Continues { m with loading := specifier :: m.loading } m')
      {other : String} {n : Nat} (hn : m'.loaded.lookup other = some n) :
      (Keyed.put specifier s.sessions.size m'.loaded).lookup other = some n := by
    have hreserved : m'.loaded.lookup specifier = m.loaded.lookup specifier :=
      hmm'.reserved specifier List.mem_cons_self
    have hne : other ≠ specifier := by
      intro heq
      rw [heq, hreserved, h.loaded] at hn
      cases hn
    rw [Keyed.lookup_put_of_ne hne, hn]
  refine h.proceeds (fun n hn => rfl) hmodules (fun hmm' => ⟨?_, hput hmm'⟩) fun {τ'} hτ' => ?_
  · exact hmm'.leave.load h.loaded h.loading _
  · obtain rfl : τ = τ' := Option.some.inj (hτ.symm.trans hτ')
    have halive : τ.alive = true := hστ.alive.trans h.fresh.alive
    have hk := hmodules σ.modules
    rw [if_pos rfl, hm', Option.map_some] at hk
    show Store.Hosts _ s.sessions.size specifier { τ with alive := τ.alive }
    exact h.hosts hστ hk hmm'.registry (fun _ => Keyed.lookup_put ..)
      fun hdead => nomatch halive.symm.trans hdead

/-- The new session is let go of. -/
theorem dropped (failed : ∀ τ : Session, t.sessions[s.sessions.size]? = some τ → τ.RootFailed) :
    s.Proceeds ((Accord.left t σ.modules specifier).changeSession s.sessions.size fun σ =>
      { σ with alive := false }) := by
  obtain ⟨m', hm', hmm'⟩ := h.module_after
  obtain ⟨τ, hτ, hστ⟩ := h.session_after
  refine h.proceeds (f := fun m => { m with loading := m.loading.erase specifier }) (fun n hn => ?_)
    (fun n => Array.getElem?_modify) (fun hmm' => ⟨hmm'.leave, id⟩) fun {τ'} hτ' => ?_
  · show (t.sessions.modify _ _)[n]? = _
    rw [Array.getElem?_modify, if_neg (Ne.symm hn)]
  · change (t.sessions.modify _ _)[s.sessions.size]? = _ at hτ'
    rw [Array.getElem?_modify, if_pos rfl, hτ] at hτ'
    obtain rfl := Option.some.inj hτ'
    refine h.hosts (k := { m' with loading := m'.loading.erase specifier }) hστ ?_ hmm'.registry
      (fun h => nomatch h) fun _ => failed τ hτ
    show (t.modules.modify _ _)[σ.modules]? = _
    rw [Array.getElem?_modify, if_pos rfl, hm']
    rfl

end Computes
end Store

/-! ### The value of a root -/

/-- What an expression is answered with that is not being executed is kept as its result. -/
theorem Engine.evaluate_answers {fuel : Nat} {s s' : Store} {place : Nat} {key : String}
    {a : Option Result} (hk : ∀ σ ∈ s.sessions[place]?, key ∉ σ.inFlight)
    (h : (Engine.ofFuel fuel).ask (.evaluate place key) s = .ok a s') :
    (a = none ∧ s' = s) ∨ ∃ r, a = some r ∧ s'.result? place key = some r := by
  have hsteady := (Engine.steady_ofFuel fuel (.evaluate place key)).ends (.value h)
  cases fuel with
  | zero => cases h
  | succ fuel =>
    change (Engine.ofFuel fuel).evaluate place key s = .ok a s' at h
    cases s.lookup place key with
    | absent hx =>
      cases ((Engine.ofFuel fuel).evaluate_absent hx).symm.trans h
      exact .inl ⟨rfl, rfl⟩
    | @kept x r hx hr =>
      cases ((Engine.ofFuel fuel).evaluate_kept hx hr).symm.trans h
      exact .inr ⟨r, rfl, (Store.result?_changeSession ..).trans hr⟩
    | circular hσ hx hr hmem => exact absurd hmem (hk _ hσ)
    | new hσ hx hr hnew =>
      rw [Engine.evaluate_new _ hσ hx hr hnew, Accord.executing_run] at h
      generalize (Engine.ofFuel fuel).execute place _ _ _ = result at h
      cases result with
      | error e s₁ => cases h
      | ok o s₁ =>
        cases h
        exact .inr ⟨⟨s₁.fresh, o⟩, rfl, Store.result?_finished hσ hsteady⟩

theorem Engine.firstResult_answers {fuel : Nat} {s s' : Store} {place : Nat}
    (hs : ∀ σ ∈ s.sessions[place]?, σ.inFlight = []) {keys : List String} {r : Result}
    (h : (Engine.ofFuel fuel).firstResult place keys s = .ok (some r) s') :
    ∃ key ∈ keys, s'.result? place key = some r := by
  induction keys with
  | nil => cases h
  | cons key rest ih =>
    obtain ⟨a, s₁, ha, hrest⟩ := Run.bind_eq_ok h
    have hfree : ∀ σ ∈ s.sessions[place]?, key ∉ σ.inFlight := by
      intro σ hσ
      rw [hs σ hσ]
      exact List.not_mem_nil
    clear h
    rcases Engine.evaluate_answers hfree ha with ⟨rfl, rfl⟩ | ⟨r', rfl, hr'⟩
    · obtain ⟨key', hkey', hr⟩ := ih hrest
      exact ⟨key', List.mem_cons_of_mem _ hkey', hr⟩
    · cases hrest
      exact ⟨key, List.mem_cons_self, hr'⟩

/-- If the root of a new session comes to a failure, it is the result of the expression that
stands for the root. -/
theorem Engine.root_failed {fuel : Nat} {s s' : Store} {place : Nat} {σ τ : Session} {v : Value}
    {f : Fault} (hσ : s.sessions[place]? = some σ) (fresh : σ.Fresh)
    (h : (Engine.ofFuel fuel).ask (.folderValue place "") s = .ok v s')
    (hf : Import.checked v = .error f) (hτ : s'.sessions[place]? = some τ) : τ.RootFailed := by
  cases fuel with
  | zero => cases h
  | succ fuel =>
    change (Engine.ofFuel fuel).folderValue place "" s = .ok v s' at h
    unfold Engine.folderValue at h
    obtain ⟨s₀, s₁, hs, h⟩ := Run.bind_eq_ok h
    cases hs
    simp only [hσ] at h
    split at h
    · cases h
      cases hf
    · obtain ⟨a, s₁, ha, h⟩ := Run.bind_eq_ok h
      cases a with
      | some r =>
        cases h
        have hs : ∀ τ ∈ s.sessions[place]?, τ.inFlight = [] := by
          intro τ hτ
          obtain rfl : σ = τ := Option.some.inj (hσ.symm.trans hτ)
          exact fresh.inFlight
        obtain ⟨key, hkey, hr⟩ := Engine.firstResult_answers hs ha
        rw [Store.result?_of_lookup hτ] at hr
        exact ⟨key, hkey, r, f, Keyed.mem_of_lookup hr, hf⟩
      | none =>
        simp only [fresh.folderValues, List.lookup_nil] at h
        obtain ⟨es, s₂, -, h⟩ := Run.bind_eq_ok h
        obtain ⟨-, s₃, -, h⟩ := Run.bind_eq_ok h
        cases h
        cases hf

/-! ### Loading a module -/

namespace Store

theorem proceeding_loads : proceeding.Loads := by
  intro fuel s σ m specifier tree he hm halive hloaded hloading hregistry s' hs'
  rw [SessionSimulation.Reaches.loadModule_eq] at hs'
  have hnew := Run.newSessionWith_run tree σ.time s σ.modules σ.settings σ.overrides
  rcases Run.endsIn_bind hs' with ⟨place, s₁, hrun, hs'⟩ | ⟨f, hrun⟩
  · cases hnew.symm.trans hrun
    have hstart := Session.fresh_start tree σ.settings σ.overrides (Formula.libraryFrom s.fresh)
      (Formula.mathFrom (s.fresh + Formula.libraryCodes.length)) σ.time σ.modules
    have hcomputes {v : Value} {t : Store}
        (hv : (Engine.ofFuel fuel).ask (.folderValue s.sessions.size "") (Accord.entered
          (s.opening tree σ.settings σ.overrides σ.time σ.modules) σ.modules specifier) = .ok v t) :
        s.Computes (s.opening tree σ.settings σ.overrides σ.time σ.modules) t m specifier
          (.start tree σ.settings σ.overrides (Formula.libraryFrom s.fresh)
            (Formula.mathFrom (s.fresh + Formula.libraryCodes.length)) σ.time σ.modules) :=
      ⟨hm, hregistry, hloaded, hloading, hstart, rfl, rfl, rfl, he.folderValue _ "" _ t (.value hv)⟩
    have hroot := Accord.loading_run σ.modules specifier
      ((Engine.ofFuel fuel).ask (.folderValue s.sessions.size ""))
      (s.opening tree σ.settings σ.overrides σ.time σ.modules)
    rcases Run.endsIn_bind hs' with ⟨v, s₂, hrun, hs'⟩ | ⟨f, hrun⟩
    · rw [hroot] at hrun
      split at hrun
      · rename_i v' t hv
        cases hrun
        have hcomputes := hcomputes hv
        split at hs'
        · rename_i f hf
          cases hs' with
          | value h => cases h
          | failure h =>
            cases h
            refine hcomputes.dropped fun τ hτ => ?_
            exact Engine.root_failed Array.getElem?_push_size hstart hv hf hτ
        · cases hs' with
          | value h =>
            cases h
            exact hcomputes.kept
          | failure h => cases h
      · cases hrun
    · rw [hroot] at hrun
      split at hrun
      · cases hrun
      · rename_i hv
        cases hrun
        exact absurd hv (((Engine.total_ofFuel fuel).folderValue _ "").ends _ _ _)
  · cases hnew.symm.trans hrun

end Store

/-! ## Asking -/

/-- Whatever a session is asked, modules are loaded once.  Every session that was there goes on
with the results that it had, every module that was loaded is loaded still, and every new session
is one of a registered module and has executed each of its expressions at most once.  No two new
sessions of one module are kept: the others were let go of because the root of the module had
failed in them. -/
theorem modules_load_once (fuel place : Nat) (qs : List Query) (s : Store) :
    (qs.mapM ((Engine.ofFuel fuel).query place)).Yields s fun _ s' =>
      s.Proceeds s' ∧ ∀ (specifier : String) (n₁ n₂ : Nat) (σ₁ σ₂ : Session),
        s'.Hosts n₁ specifier σ₁ → s'.Hosts n₂ specifier σ₂ → σ₁.modules = σ₂.modules →
        σ₁.alive = true → σ₂.alive = true → n₁ = n₂ := by
  have he := Course.serves Store.proceeding_executes Store.proceeding_loads fuel
  have ht := Engine.total_ofFuel fuel
  have hqs : Store.proceeding.Keeps (qs.mapM ((Engine.ofFuel fuel).query place)) :=
    Course.keeps_mapM (he.query Store.proceeding_executes ht place) qs
  constructor
  · intro as s' h
    refine ⟨hqs s s' (.value h), fun specifier n₁ n₂ σ₁ σ₂ h₁ h₂ hmodules halive₁ halive₂ => ?_⟩
    obtain ⟨m₁, hm₁, -, hloaded₁⟩ := h₁.module
    obtain ⟨m₂, hm₂, -, hloaded₂⟩ := h₂.module
    rw [← hmodules, hm₁] at hm₂
    obtain rfl : m₁ = m₂ := Option.some.inj hm₂
    exact Option.some.inj ((hloaded₁ halive₁).symm.trans (hloaded₂ halive₂))
  · intro f s'
    exact (Run.total_mapM (ht.query place) qs).ends s f s'

/-! ## A module that fails -/

/-- Two expressions that import a module. -/
def importers : Tree :=
  ⟨[("", some [⟨.expression, "a", 1, some .formula⟩, ⟨.expression, "b", 2, some .formula⟩])],
    [("a", some "import(\"m\")"), ("b", some "import(\"m\")")], 2⟩

/-- A module whose root throws. -/
def thrower : Tree :=
  ⟨[("", some [⟨.expression, "return", 1, some .script⟩])], [("return", some "throw 1")], 1⟩

theorem ofTree_importers : Outline.ofTree importers =
    ⟨[Outline.root], [⟨"a", "a", ["a"], .formula, 1, ""⟩, ⟨"b", "b", ["b"], .formula, 2, ""⟩]⟩ :=
  (Outline.ofTree_of_expressions rfl (by decide) rfl).trans rfl

theorem pathKey_a : pathKey "a" = "a" :=
  pathKey_of_name (by decide) (by decide)

theorem pathKey_b : pathKey "b" = "b" :=
  pathKey_of_name (by decide) (by decide)

/-- Two sessions have been made for the module, and each has executed its root. -/
theorem failing_module_runs_twice :
    (((Engine.ofFuel 14).consult importers ⟨.standard, [], [("m", thrower)]⟩ 0
        [.expression "a", .expression "b"]).last .empty).sessions.toList.map
      (fun σ => (σ.alive, σ.begun)) =
      [(true, ["b", "a"]), (false, ["return"]), (false, ["return"])] := by
  rw [Engine.last_consult]
  unfold Engine.query Store.opened Store.opening Session.start
  rw [ofTree_importers]
  simp only [pathKey_a, pathKey_b, List.mapM_cons, List.mapM_nil]
  decide +kernel

end Workbook
