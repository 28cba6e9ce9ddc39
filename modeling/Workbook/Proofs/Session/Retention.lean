/-
Sessions keep what they have come to.

Whatever an engine is asked, every session that is there stays, with its outline and with all the
results that it had; what it is executing at the beginning is what it is executing at the end, and
nothing of that has got a result in between (`Engine.retains_ask`).  Together with what is said of
frozen containers, this is what anyone may rely on who has to do with a store: `Store.Precedes`.
-/
import Workbook.Proofs.Frozen
import Workbook.Proofs.Session.Modules

namespace Workbook

/-! ## Sessions later on -/

/-- A session and the same session later on, with all the results that it had. -/
structure Session.Precedes (σ σ' : Session) : Prop where
  alive : σ'.alive = true → σ.alive = true
  tree : σ'.tree = σ.tree
  outline : σ'.outline = σ.outline
  kept : ∀ {key : String} {r : Result}, σ.results.lookup key = some r →
    σ'.results.lookup key = some r

/-- A session later on that is executing the same expressions again, and none of them has got a
result. -/
structure Session.Retains (σ σ' : Session) : Prop extends Session.Precedes σ σ' where
  inFlight : σ'.inFlight = σ.inFlight
  waiting : ∀ key ∈ σ.inFlight, σ'.results.lookup key = σ.results.lookup key

namespace Session

variable {σ τ υ : Session}

theorem Precedes.refl (σ : Session) : σ.Precedes σ :=
  ⟨id, rfl, rfl, id⟩

theorem Precedes.trans (h : σ.Precedes τ) (h' : τ.Precedes υ) : σ.Precedes υ where
  alive halive := h.alive (h'.alive halive)
  tree := h'.tree.trans h.tree
  outline := h'.outline.trans h.outline
  kept hr := h'.kept (h.kept hr)

theorem Retains.refl (σ : Session) : σ.Retains σ :=
  ⟨.refl σ, rfl, fun _ _ => rfl⟩

theorem Retains.trans (h : σ.Retains τ) (h' : τ.Retains υ) : σ.Retains υ where
  toPrecedes := h.toPrecedes.trans h'.toPrecedes
  inFlight := h'.inFlight.trans h.inFlight
  waiting key hkey := (h'.waiting key (h.inFlight ▸ hkey)).trans (h.waiting key hkey)

theorem retains_of_core (h : τ.core = σ.core) : σ.Retains τ := by
  have alive : τ.core.alive = σ.core.alive := by rw [h]
  have tree : τ.core.tree = σ.core.tree := by rw [h]
  have outline : τ.core.outline = σ.core.outline := by rw [h]
  have inFlight : τ.core.inFlight = σ.core.inFlight := by rw [h]
  have results : τ.core.results = σ.core.results := by rw [h]
  have results : τ.results = σ.results := results
  exact ⟨⟨fun halive => alive.symm.trans halive, tree, outline, fun hr => results ▸ hr⟩, inFlight,
    fun _ _ => by rw [results]⟩

/-- A result more does not take the place of another. -/
theorem Precedes.finished {key : String} (result : τ.results.lookup key = none)
    (h : σ.Precedes τ) (r : Result) : σ.Precedes (τ.finished key r) where
  alive := h.alive
  tree := h.tree
  outline := h.outline
  kept {other r'} hr := by
    have hne : other ≠ key := by
      rintro rfl
      rw [h.kept hr] at result
      cases result
    show ((key, r) :: τ.results).lookup other = some r'
    rw [List.lookup_cons, beq_false_of_ne hne]
    exact h.kept hr

/-- The execution of an expression that had no result. -/
theorem Retains.executing {key : String} (result : σ.results.lookup key = none)
    (inFlight : key ∉ σ.inFlight) (h : (σ.counted key).Retains τ) (r : Result) :
    σ.Retains (τ.finished key r) where
  toPrecedes := by
    have hτ : τ.results.lookup key = none := (h.waiting key List.mem_cons_self).trans result
    have hσ : σ.Precedes τ := ⟨h.alive, h.tree, h.outline, h.kept⟩
    exact hσ.finished hτ r
  inFlight := by
    have hτ : τ.inFlight = key :: σ.inFlight := h.inFlight
    show τ.inFlight.erase key = σ.inFlight
    rw [hτ, List.erase_cons_head]
  waiting other hother := by
    have hne : other ≠ key := by
      rintro rfl
      exact inFlight hother
    show ((key, r) :: τ.results).lookup other = σ.results.lookup other
    rw [List.lookup_cons, beq_false_of_ne hne]
    exact h.waiting other (List.mem_cons_of_mem _ hother)

end Session

namespace Store

/-- A store later on, in which every session that was there is a later one. -/
def Retains (s s' : Store) : Prop :=
  ∀ (place : Nat) (σ : Session), s.sessions[place]? = some σ →
    ∃ σ', s'.sessions[place]? = some σ' ∧ σ.Retains σ'

variable {s t u : Store} {place : Nat} {key : String}

theorem retains_of_sessions {s s' : Store} (h : s'.sessions = s.sessions) : s.Retains s' :=
  fun _ σ hσ => ⟨σ, h ▸ hσ, .refl σ⟩

theorem Retains.trans (h : s.Retains t) (h' : t.Retains u) : s.Retains u := by
  intro place σ hσ
  obtain ⟨τ, hτ, hστ⟩ := h place σ hσ
  obtain ⟨υ, hυ, hτυ⟩ := h' place τ hτ
  exact ⟨υ, hυ, hστ.trans hτυ⟩

/-- A session that is changed, and the others. -/
theorem getElem?_changeSession (s : Store) (place : Nat) (f : Session → Session) (n : Nat) :
    (s.changeSession place f).sessions[n]? =
      if place = n then (s.sessions[n]?).map f else s.sessions[n]? :=
  Array.getElem?_modify

theorem retains_changeSession (s : Store) (place : Nat) {f : Session → Session}
    (h : ∀ σ : Session, σ.Retains (f σ)) : s.Retains (s.changeSession place f) := by
  intro n σ hσ
  rw [getElem?_changeSession, hσ]
  by_cases hn : place = n
  · rw [if_pos hn]
    exact ⟨f σ, rfl, h σ⟩
  · rw [if_neg hn]
    exact ⟨σ, rfl, .refl σ⟩

/-- The course of sessions that keep what they have come to. -/
def retaining : Course where
  Goes := Retains
  refl _ := retains_of_sessions rfl
  trans := Retains.trans
  unchanged h _ := retains_of_sessions h
  minor s place _ h := s.retains_changeSession place fun σ => Session.retains_of_core (h σ)

theorem Retains.executing {σ : Session} (hσ : s.sessions[place]? = some σ)
    (result : σ.results.lookup key = none) (inFlight : key ∉ σ.inFlight)
    (h : (s.counted place key).Retains t) (r : Result) :
    s.Retains (Accord.finished (Accord.numbered t) place key r) := by
  intro n τ hτ
  have hcounted := getElem?_counted s place key n
  rw [getElem?_finished]
  by_cases hn : place = n
  · subst hn
    obtain rfl : σ = τ := Option.some.inj (hσ.symm.trans hτ)
    rw [if_pos rfl, hσ] at hcounted
    obtain ⟨υ, hυ, hσυ⟩ := h place _ hcounted
    rw [if_pos rfl, hυ]
    exact ⟨υ.finished key r, rfl, hσυ.executing result inFlight r⟩
  · rw [if_neg hn] at hcounted ⊢
    exact h n τ (hcounted.trans hτ)

theorem retaining_executes : retaining.Executes := by
  intro s place key σ x y hσ hx hr hk ht hy s' hs'
  have hcount : Run.count place (fun c => { c with executions := c.executions + 1 })
      (Accord.begun s place key) = .ok () (s.counted place key) := rfl
  have hrun := Accord.executing_run place key
    (Run.count place (fun c => { c with executions := c.executions + 1 }) >>= fun _ => y) s
  rw [Run.bind_run hcount] at hrun
  cases hy' : y (s.counted place key) with
  | ok o t =>
    rw [hy'] at hrun
    have hgoes : (s.counted place key).Retains t := hy _ _ (.value hy')
    cases hs' with
    | value h =>
      cases hrun.symm.trans h
      exact hgoes.executing hσ hr hk ⟨t.fresh, o⟩
    | failure h => cases hrun.symm.trans h
  | error e t =>
    rw [hy'] at hrun
    cases hs' with
    | value h => cases hrun.symm.trans h
    | failure h =>
      cases hrun.symm.trans h
      exact absurd hy' (ht.ends _ _ _)

theorem retaining_newSessionWith (modules : Nat) (tree : Tree) (settings : Settings)
    (overrides : List (String × Value)) (time : Float) :
    retaining.Keeps (Run.newSessionWith modules tree settings overrides time) := by
  intro s s' hs'
  have hrun := Run.newSessionWith_run tree time s modules settings overrides
  cases hs' with
  | value h =>
    cases hrun.symm.trans h
    exact fun place σ hσ => ⟨σ, push_getElem? hσ, .refl σ⟩
  | failure h => cases hrun.symm.trans h

theorem retaining_loads : retaining.Loads := by
  intro fuel s σ m specifier tree he _ _ _ _ _
  have hmodules (f : Modules → Modules) : retaining.Keeps (Run.changeModules σ.modules f) :=
    fun s => Course.from_modifyGet (retains_of_sessions (s := s) rfl)
  have hrelease (place : Nat) : retaining.Keeps (Run.release place) := by
    refine fun s => Course.from_modifyGet ?_
    exact s.retains_changeSession place fun σ =>
      ⟨⟨(fun h => nomatch h), rfl, rfl, id⟩, rfl, fun _ _ => rfl⟩
  refine ((retaining_newSessionWith _ tree _ _ _).bind fun place => ?_) s
  refine (hmodules _).bind fun _ => (he.folderValue place "").bind fun root =>
    (hmodules _).bind fun _ => ?_
  split
  · exact (hrelease place).bind fun _ => Course.keeps_fault _
  · exact (hmodules _).bind fun _ => Course.keeps_pure place

end Store

/-! ## Requests -/

namespace Engine

theorem retaining_serves (fuel : Nat) : Store.retaining.Serves (Engine.ofFuel fuel) :=
  Course.serves Store.retaining_executes Store.retaining_loads fuel

/-- Whatever an engine is asked, sessions keep what they have come to. -/
theorem retains_ask (fuel : Nat) {α : Type} {r : Request α} {s s' : Store}
    (h : ((Engine.ofFuel fuel).ask r).EndsIn s s') : s.Retains s' :=
  (retaining_serves fuel).ask r s s' h

end Engine

/-! ## What comes after -/

namespace Store

/-- A store and one that comes after it, maybe in the midst of executions: what was frozen is as it
was, and a session has the results that it had. -/
structure Precedes (s : Store) (place : Nat) (t : Store) : Prop extends Store.FrozenKept s t where
  session : ∀ σ, s.sessions[place]? = some σ →
    ∃ τ, t.sessions[place]? = some τ ∧ σ.Precedes τ

variable {s t u : Store} {place : Nat}

theorem Retains.precedes (h : s.Retains t) (kept : s.FrozenKept t) (place : Nat) :
    s.Precedes place t where
  toFrozenKept := kept
  session σ hσ := by
    obtain ⟨τ, hτ, hστ⟩ := h place σ hσ
    exact ⟨τ, hτ, hστ.toPrecedes⟩

theorem Precedes.refl (s : Store) (place : Nat) : s.Precedes place s :=
  (retains_of_sessions rfl).precedes (.refl s) place

theorem Precedes.trans (h : s.Precedes place t) (h' : t.Precedes place u) : s.Precedes place u where
  toFrozenKept := h.toFrozenKept.trans h'.toFrozenKept
  session σ hσ := by
    obtain ⟨τ, hτ, hστ⟩ := h.session σ hσ
    obtain ⟨υ, hυ, hτυ⟩ := h'.session τ hτ
    exact ⟨υ, hυ, hστ.trans hτυ⟩

/-- What is kept of an expression is kept. -/
theorem Precedes.result? (h : s.Precedes place t) {key : String} {r : Result}
    (hr : s.result? place key = some r) : t.result? place key = some r := by
  obtain ⟨σ, hσ, hr⟩ := Option.bind_eq_some_iff.1 hr
  obtain ⟨τ, hτ, hστ⟩ := h.session σ hσ
  rw [result?_of_lookup hτ]
  exact hστ.kept hr

theorem precedes_ordinary (h : s.Ordinary t) (place : Nat) : s.Precedes place t :=
  (retains_of_sessions h.sessions).precedes h.toFrozenKept place

/-- A change of a session precedes what follows if it takes nothing away. -/
theorem precedes_changeSession (s : Store) (n : Nat) {f : Session → Session}
    (h : ∀ σ, n = place → s.sessions[place]? = some σ → σ.Precedes (f σ)) :
    s.Precedes place (s.changeSession n f) where
  arrays _ _ hc _ := hc
  objects _ _ hc _ := hc
  session σ hσ := by
    rw [getElem?_changeSession, hσ]
    by_cases hn : n = place
    · rw [if_pos hn]
      exact ⟨f σ, rfl, h σ hn hσ⟩
    · rw [if_neg hn]
      exact ⟨σ, rfl, .refl σ⟩

/-- Something begins to be executed. -/
theorem precedes_begun (s : Store) (n : Nat) (key : String) (place : Nat) :
    s.Precedes place (Accord.begun s n key) :=
  s.precedes_changeSession n fun _ _ _ => ⟨id, rfl, rfl, id⟩

end Store

/-- A run that goes along with sessions and with frozen containers comes after. -/
theorem Run.precedes_of_keeps {α : Type} {x : Run α} {s s' : Store}
    (retains : Store.retaining.Keeps x) (frozen : s.frozenCustody.Keeps () x fun _ _ => True)
    (h : x.EndsIn s s') (place : Nat) : s.Precedes place s' := by
  obtain ⟨_, -, hi⟩ := frozen.endsIn ⟨rfl, .refl s⟩ h
  have hretains : s.Retains s' := retains s s' h
  exact hretains.precedes hi.2 place

/-- Whatever an engine is asked comes after. -/
theorem Engine.precedes_ask (fuel : Nat) {α : Type} {r : Request α} {s s' : Store}
    (h : ((Engine.ofFuel fuel).ask r).EndsIn s s') (place : Nat) : s.Precedes place s' :=
  (retains_ask fuel h).precedes (Store.frozenKept_ask fuel h) place

end Workbook
