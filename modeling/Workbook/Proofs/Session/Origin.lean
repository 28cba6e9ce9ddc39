/-
Where results come from.

A result that a session keeps is what an execution came to, once, in a store that precedes the one
in which the result is found.  A store of which this is true is `Founded`; so is every store that
the owners of sessions come to (`settled_of_comes`), whatever they do.  What can be said of
an execution can thus be said of the results that are kept.
-/
import Workbook.Proofs.Custody.Extension
import Workbook.Proofs.Session.Result

open List (Forall₂)

namespace Workbook

/-- From a firm store, an expression that has no result and is not being executed is executed and
comes to an outcome. -/
structure Store.Executes (s : Store) (fuel place : Nat) (key : String) (σ : Session)
    (x : Outline.Expression) (o : Outcome) (u : Store) : Prop where
  firm : s.Firm
  session : s.sessions[place]? = some σ
  known : σ.outline.expression? key = some x
  result : σ.results.lookup key = none
  inFlight : key ∉ σ.inFlight
  run : (Engine.ofFuel fuel).execute place σ x (Accord.begun s place key) = .ok o u

/-- A store in which every result is what an execution came to, and nothing that is being executed
has a result. -/
structure Store.Founded (t : Store) : Prop where
  waiting : ∀ {place : Nat} {σ : Session}, t.sessions[place]? = some σ →
    ∀ key ∈ σ.inFlight, σ.results.lookup key = none
  origins : ∀ {place : Nat} {key : String} {x : Outline.Expression} {r : Result},
    t.expression? place key = some x → t.result? place key = some r →
    ∃ (fuel : Nat) (s : Store) (σ : Session) (u : Store),
      s.Executes fuel place key σ x r.outcome u ∧ u.Precedes place t

namespace Store

variable {s s' t u : Store} {fuel place : Nat} {key : String} {σ : Session} {x : Outline.Expression}
  {o : Outcome}

/-- A change of a session that leaves outlines alone. -/
theorem expression?_changed (s : Store) (place : Nat) {f : Session → Session}
    (h : ∀ σ, (f σ).outline = σ.outline) (n : Nat) (key : String) :
    (s.changeSession place f).expression? n key = s.expression? n key := by
  unfold expression?
  rw [getElem?_changeSession]
  split
  · cases s.sessions[n]? with
    | none => rfl
    | some σ => exact congrArg (·.expression? key) (h σ)
  · rfl

/-- A change of a session that leaves a result alone. -/
theorem result?_changed (s : Store) (place : Nat) {f : Session → Session} {n : Nat} {key : String}
    (h : place = n → ∀ σ, (f σ).results.lookup key = σ.results.lookup key) :
    (s.changeSession place f).result? n key = s.result? n key := by
  unfold result?
  rw [getElem?_changeSession]
  split
  · rename_i hn
    cases s.sessions[n]? with
    | none => rfl
    | some σ => exact h hn σ
  · rfl

theorem firm_begun (h : s.Firm) (place : Nat) (key : String) : (Accord.begun s place key).Firm :=
  ((firmCustody_lenient place).note (key :: ·) id ⟨rfl, .refl h⟩).2.firm

/-- While it is being executed, an expression gets no result. -/
theorem retains_execute (σ : Session) (x : Outline.Expression)
    (h : ((Engine.ofFuel fuel).execute place σ x).EndsIn s u) : s.Retains u := by
  have hcount : retaining.Keeps
      (Run.count place fun c => { c with executions := c.executions + 1 }) := by
    refine fun s => Course.from_modifyGet (s.retains_changeSession place fun σ => ?_)
    exact ⟨⟨id, rfl, rfl, id⟩, rfl, fun _ _ => rfl⟩
  have hkeeps : retaining.Keeps ((Engine.ofFuel fuel).execute place σ x) :=
    hcount.bind fun _ => (Engine.retaining_serves fuel).executeIn place σ x
  exact hkeeps s u h

theorem Executes.retains (h : s.Executes fuel place key σ x o u) :
    (Accord.begun s place key).Retains u :=
  retains_execute σ x (.value h.run)

/-- When it has been executed, an expression has no result yet. -/
theorem Executes.session_after (h : s.Executes fuel place key σ x o u) :
    ∃ τ, u.sessions[place]? = some τ ∧ τ.inFlight = key :: σ.inFlight ∧ τ.outline = σ.outline ∧
      τ.results.lookup key = none := by
  have hbegun : (Accord.begun s place key).sessions[place]? =
      some { σ with inFlight := key :: σ.inFlight } := by
    unfold Accord.begun
    rw [getElem?_changeSession, if_pos rfl, h.session]
    rfl
  obtain ⟨τ, hτ, hστ⟩ := h.retains place _ hbegun
  exact ⟨τ, hτ, hστ.inFlight, hστ.outline,
    (hστ.waiting key List.mem_cons_self).trans h.result⟩

/-! ## The custody of founded stores -/

theorem Founded.calm (h : s.Founded) (hs : s.Calm s') : s'.Founded where
  waiting {place σ'} hσ' key hkey := by
    cases hσ : s.sessions[place]? with
    | none =>
      rw [hs.fresh place σ' hσ' hσ]
      rfl
    | some σ =>
      obtain ⟨τ, hτ, hστ, hresults⟩ := hs.sessions place σ hσ
      obtain rfl : τ = σ' := Option.some.inj (hτ.symm.trans hσ')
      rw [hresults]
      exact h.waiting hσ key (hστ.inFlight ▸ hkey)
  origins {place key x r} hx hr := by
    obtain ⟨σ', hσ', hr⟩ := Option.bind_eq_some_iff.1 hr
    cases hσ : s.sessions[place]? with
    | none =>
      rw [hs.fresh place σ' hσ' hσ] at hr
      cases hr
    | some σ =>
      obtain ⟨τ, hτ, hστ, hresults⟩ := hs.sessions place σ hσ
      obtain rfl : τ = σ' := Option.some.inj (hτ.symm.trans hσ')
      rw [expression?_of_outline hσ', hστ.outline] at hx
      rw [hresults] at hr
      obtain ⟨fuel, s₀, σ₀, u, hexecutes, hu⟩ :=
        h.origins ((expression?_of_outline hσ).trans hx) ((result?_of_lookup hσ).trans hr)
      exact ⟨fuel, s₀, σ₀, u, hexecutes, hu.trans (hs.precedes place)⟩

/-- An expression begins to be executed that has no result. -/
theorem Founded.begun (h : s.Founded) (hσ : s.sessions[place]? = some σ)
    (result : σ.results.lookup key = none) : (Accord.begun s place key).Founded where
  waiting {n τ} hτ key' hkey' := by
    rw [Accord.begun, getElem?_changeSession] at hτ
    by_cases hn : place = n
    · subst hn
      rw [if_pos rfl, hσ] at hτ
      cases hτ
      rcases List.mem_cons.1 hkey' with rfl | hkey'
      · exact result
      · exact h.waiting hσ key' hkey'
    · rw [if_neg hn] at hτ
      exact h.waiting hτ key' hkey'
  origins {n key' x r} hx hr := by
    rw [Accord.begun, expression?_changed] at hx
    · rw [Accord.begun, result?_changed] at hr
      · obtain ⟨fuel, s₀, σ₀, u, hexecutes, hu⟩ := h.origins hx hr
        exact ⟨fuel, s₀, σ₀, u, hexecutes, hu.trans (s.precedes_begun place key n)⟩
      · exact fun _ _ => rfl
    · exact fun _ => rfl

/-- An expression has been executed and gets its result. -/
theorem Founded.finished (h : u.Founded) (hexecutes : s.Executes fuel place key σ x o u) :
    (Accord.finished (Accord.numbered u) place key ⟨u.fresh, o⟩).Founded := by
  obtain ⟨τ, hτ, inFlight, outline, result⟩ := hexecutes.session_after
  have hfinished (n : Nat) := getElem?_finished u place key ⟨u.fresh, o⟩ n
  have hplace := hfinished place
  rw [if_pos rfl, hτ] at hplace
  have hu (n : Nat) :
      u.Precedes n (Accord.finished (Accord.numbered u) place key ⟨u.fresh, o⟩) := by
    have hnumbered : u.Ordinary (Accord.numbered u) :=
      ordinary_of_eq rfl rfl rfl rfl rfl (Nat.le_succ _)
    refine (precedes_ordinary hnumbered n).trans (precedes_changeSession _ place ?_)
    rintro υ rfl hυ
    obtain rfl : τ = υ := Option.some.inj (hτ.symm.trans hυ)
    exact (Session.Precedes.refl τ).finished result ⟨u.fresh, o⟩
  constructor
  · intro n υ hυ key' hkey'
    by_cases hn : place = n
    · subst hn
      obtain rfl := Option.some.inj (hplace.symm.trans hυ)
      have hmem : key' ∈ σ.inFlight := by
        have herase : key' ∈ τ.inFlight.erase key := hkey'
        rw [inFlight, List.erase_cons_head] at herase
        exact herase
      have hne : key' ≠ key := by
        rintro rfl
        exact hexecutes.inFlight hmem
      show ((key, _) :: τ.results).lookup key' = none
      rw [List.lookup_cons, beq_false_of_ne hne]
      exact h.waiting hτ key' (inFlight ▸ List.mem_cons_of_mem _ hmem)
    · rw [hfinished, if_neg hn] at hυ
      exact h.waiting hυ key' hkey'
  · intro n key' y r hy hr
    by_cases hn : place = n ∧ key' = key
    · obtain ⟨rfl, rfl⟩ := hn
      rw [expression?_of_outline hplace] at hy
      rw [result?_of_lookup hplace] at hr
      have hr : ((key', (⟨u.fresh, o⟩ : Result)) :: τ.results).lookup key' = some r := hr
      rw [List.lookup_cons_self] at hr
      cases hr
      have hy : τ.outline.expression? key' = some y := hy
      rw [outline, hexecutes.known] at hy
      cases hy
      exact ⟨fuel, s, σ, u, hexecutes, hu place⟩
    · have hx : u.expression? n key' = some y := by
        rw [Accord.finished, expression?_changed] at hy
        · exact hy
        · exact fun _ => rfl
      have hr : u.result? n key' = some r := by
        rw [Accord.finished, result?_changed] at hr
        · exact hr
        · intro heq τ
          have hne : key' ≠ key := fun h => hn ⟨heq, h⟩
          show ((key, _) :: τ.results).lookup key' = _
          rw [List.lookup_cons, beq_false_of_ne hne]
      obtain ⟨fuel', s₀, σ₀, u₀, hexecutes₀, hu₀⟩ := h.origins hx hr
      exact ⟨fuel', s₀, σ₀, u₀, hexecutes₀, hu₀.trans (hu n)⟩

/-- The custody of firm stores that are founded. -/
def foundedCustody : Custody :=
  firmCustody.besides Founded Founded.calm

/-- Evaluating keeps a store founded. -/
theorem keeps_evaluate (he : foundedCustody.Serves (Engine.ofFuel fuel)) (w : Store) (place : Nat)
    (key : String) : foundedCustody.Keeps w ((Engine.ofFuel fuel).evaluate place key)
      (foundedCustody.Evaluated place key) := by
  refine ⟨?_⟩
  rintro s _ ⟨⟨rfl, hi⟩, hJ⟩
  have hlenient := firmCustody_lenient place
  cases s.lookup place key with
  | absent hx =>
    rw [Engine.evaluate_absent _ hx]
    exact ⟨w, .refl w, ⟨⟨rfl, hi⟩, hJ⟩, rfl, (fun _ h => nomatch h), trivial⟩
  | @kept x r hx hr =>
    rw [Engine.evaluate_kept _ hx hr]
    have hcalm : s.Calm (s.hit place) := s.calm_minor place fun _ => rfl
    obtain ⟨σ, hσ, hr⟩ := Option.bind_eq_some_iff.1 hr
    have hhit : firmCustody.Inv w (s.hit place) (s.hit place) :=
      hlenient.note id (fun c => { c with cacheHits := c.cacheHits + 1 }) ⟨rfl, hi⟩
    refine ⟨w, .refl w, ⟨hhit, hJ.calm hcalm⟩, rfl, ?_, trivial⟩
    rintro _ ⟨⟩
    exact (hi.session hσ).results _ (Keyed.mem_of_lookup hr)
  | circular hσ hx hr hk =>
    rw [Engine.evaluate_circular _ hσ hx hr hk]
    have hcalm : s.Calm (s.detected place) := s.calm_minor place fun _ => rfl
    have hdetected : firmCustody.Inv w (s.detected place) (s.detected place) :=
      hlenient.note id (fun c => { c with circularDetections := c.circularDetections + 1 }) ⟨rfl, hi⟩
    obtain ⟨w', hw, hnumbered, hid⟩ := foundedCustody.freshId ⟨hdetected, hJ.calm hcalm⟩
    refine ⟨w', hw, hnumbered, rfl, ?_, trivial⟩
    rintro _ ⟨⟩
    exact ⟨hid, .failure _ _⟩
  | @new σ x hσ hx hr hk =>
    rw [Engine.evaluate_new _ hσ hx hr hk, Accord.executing_run]
    have hcount : foundedCustody.Keeps w
        (Run.count place fun c => { c with executions := c.executions + 1 }) fun _ _ => True :=
      Custody.keeps_changeSession fun s hs =>
        ⟨hlenient.note id (fun c => { c with executions := c.executions + 1 }) hs.1,
          hs.2.calm (s.calm_changeSession place
            (fun _ => ⟨⟨id, rfl, rfl, id⟩, rfl, fun _ _ => rfl⟩) fun _ => rfl)⟩
    have hexecute : foundedCustody.Keeps w ((Engine.ofFuel fuel).execute place σ x)
        foundedCustody.Computed := by
      refine hcount.bind fun w' _ _ _ => ?_
      split
      · exact he.executeFormula place σ x
      · exact he.executeScript place σ x
    have hbegun : foundedCustody.Inv w (Accord.begun s place key) (Accord.begun s place key) :=
      ⟨hlenient.note (key :: ·) id ⟨rfl, hi⟩, hJ.begun hσ hr⟩
    have hends := hexecute.ends _ _ hbegun
    have htotal := ((Engine.total_ofFuel fuel).execute place σ x).ends (Accord.begun s place key)
    cases hrun : (Engine.ofFuel fuel).execute place σ x (Accord.begun s place key) with
    | error e u =>
      rw [hrun] at hends
      cases e with
      | failed f => exact absurd hrun (htotal f u)
      | exhausted => exact trivial
    | ok o u =>
      rw [hrun] at hends
      obtain ⟨w₁, hw₁, hi₁, -, ho⟩ := hends
      have hexecutes : s.Executes fuel place key σ x o u := ⟨hi.firm, hσ, hx, hr, hk, hrun⟩
      obtain ⟨w₂, hw₂, hi₂, hid⟩ := foundedCustody.freshId hi₁
      have halike : Result.Alike (foundedCustody.pairing w₂) ⟨u.fresh, o⟩ ⟨u.fresh, o⟩ :=
        ⟨hid, ho.1.mono (foundedCustody.within hw₂)⟩
      refine ⟨w₂, Later.trans hw₁ hw₂,
        ⟨hlenient.record hi₂.1 halike (ho.mono hw₂), hi₁.2.finished hexecutes⟩, rfl, ?_, trivial⟩
      rintro _ ⟨⟩
      exact halike

/-- Every engine keeps stores founded. -/
theorem foundedCustody_serves (fuel : Nat) : foundedCustody.Serves (Engine.ofFuel fuel) :=
  foundedCustody.serves (fun _ he => keeps_evaluate he) fuel

/-! ## Everything that is done -/

/-- A firm store that is founded. -/
structure Settled (s : Store) : Prop where
  firm : s.Firm
  founded : s.Founded

theorem settled_empty : empty.Settled where
  firm := firm_empty
  founded :=
    { waiting := fun h => nomatch h
      origins := fun _ h => nomatch h }

theorem keeps_founded {α : Type} {y : Run α} (h : (Engine.ofFuel fuel).Offers s y) :
    foundedCustody.Keeps s y fun _ _ => True := by
  have he := foundedCustody_serves fuel
  refine he.offered (fun m hi => ⟨firm_newModules m hi.1, hi.2.calm (calm_of_eq rfl rfl rfl)⟩)
    (fun place key => ?_) (.refl _) h
  exact keeps_evaluate he s place key

namespace Settled

theorem offered {α : Type} {y : Run α} (h : s.Settled) (offers : (Engine.ofFuel fuel).Offers s y)
    (ends : y.EndsIn s t) : t.Settled := by
  obtain ⟨w, -, hi⟩ := (keeps_founded offers).endsIn ⟨⟨rfl, .refl h.firm⟩, h.founded⟩ ends
  exact ⟨hi.1.2.firm, hi.2⟩

theorem evaluate (h : s.Settled)
    (ends : ((Engine.ofFuel fuel).ask (.evaluate place key)).EndsIn s t) : t.Settled := by
  obtain ⟨w, -, hi⟩ := ((foundedCustody_serves fuel).evaluate s place key).endsIn
    ⟨⟨rfl, .refl h.firm⟩, h.founded⟩ ends
  exact ⟨hi.1.2.firm, hi.2⟩

theorem changeModules (h : s.Settled) (place : Nat) (f : Modules → Modules) :
    (s.changeModules place f).Settled where
  firm := { h.firm with
    places := { h.firm.places with }
    tight := ⟨h.firm.tight.arrays, h.firm.tight.objects⟩ }
  founded := h.founded.calm (calm_of_eq rfl rfl rfl)

theorem release (h : s.Settled) (place : Nat) :
    (s.changeSession place fun σ => { σ with alive := false }).Settled where
  firm := h.firm.changeSession
    (fun _ h => ⟨⟨rfl, h.alike.overrides, rfl, rfl, h.alike.library, h.alike.math⟩, h.results,
      h.folderValues, h.imports⟩) fun _ _ he => .inl he
  founded := by
    refine h.founded.calm (s.calm_changeSession place (fun σ => ?_) fun _ => rfl)
    exact ⟨⟨fun h => absurd h Bool.false_ne_true, rfl, rfl, id⟩, rfl, fun _ _ => rfl⟩

/-- A session that has forgotten its results has nothing to account for. -/
theorem forgetting (h : s.Settled) (place : Nat) (time : Float) :
    (s.changeSession place fun σ =>
      { σ with time := time, results := [], folderValues := [], imports := [] }).Settled where
  firm := by
    refine h.firm.changeSession (fun _ h => ?_) fun _ _ he => absurd he List.not_mem_nil
    exact ⟨⟨rfl, h.alike.overrides, rfl, rfl, h.alike.library, h.alike.math⟩,
      fun _ he => absurd he List.not_mem_nil, fun _ he => absurd he List.not_mem_nil,
      fun _ he => absurd he List.not_mem_nil⟩
  founded := by
    constructor
    · intro n τ hτ key hkey
      rw [getElem?_changeSession] at hτ
      by_cases hn : place = n
      · rw [if_pos hn] at hτ
        obtain ⟨σ, -, rfl⟩ := Option.map_eq_some_iff.1 hτ
        rfl
      · rw [if_neg hn] at hτ
        exact h.founded.waiting hτ key hkey
    · intro n key x r hx hr
      rw [expression?_changed] at hx
      · by_cases hn : place = n
        · subst hn
          rw [result?_changeSession] at hr
          obtain ⟨σ, -, hr⟩ := Option.bind_eq_some_iff.1 hr
          cases hr
        · rw [result?_changed] at hr
          · obtain ⟨fuel, s₀, σ₀, u, hexecutes, hu⟩ := h.founded.origins hx hr
            refine ⟨fuel, s₀, σ₀, u, hexecutes, hu.trans ?_⟩
            exact s.precedes_changeSession place fun _ heq => absurd heq hn
          · exact fun heq => absurd heq hn
      · exact fun _ => rfl

end Settled
end Store

/-! ### Times and ends -/

/-- A property of stores that is kept where a time is set or a session is let go of. -/
structure Store.Upheld (P : Store → Prop) : Prop where
  changeModules : ∀ {s : Store}, P s → ∀ (place : Nat) (f : Modules → Modules),
    P (s.changeModules place f)
  release : ∀ {s : Store}, P s → ∀ place : Nat,
    P (s.changeSession place fun σ => { σ with alive := false })
  forgetting : ∀ {s : Store}, P s → ∀ (place : Nat) (time : Float),
    P (s.changeSession place fun σ =>
      { σ with time := time, results := [], folderValues := [], imports := [] })

theorem Store.upheld_settled : Store.Upheld Store.Settled :=
  ⟨fun hs => hs.changeModules, fun hs => hs.release, fun hs => hs.forgetting⟩

/-- A run that leads from stores with a property to stores with it. -/
def Run.Upholds {α : Type} (P : Store → Prop) (x : Run α) : Prop :=
  ∀ s s' : Store, P s → x.EndsIn s s' → P s'

namespace Run

variable {α β : Type} {P : Store → Prop}

theorem upholds_pure (a : α) : (pure a : Run α).Upholds P := by
  intro s s' hs ends
  cases ends with
  | value ends =>
    cases ends
    exact hs
  | failure ends => cases ends

theorem Upholds.bind {x : Run α} {k : α → Run β} (h : x.Upholds P) (hk : ∀ a, (k a).Upholds P) :
    (x >>= k).Upholds P := by
  intro s s' hs ends
  obtain ⟨a, s₁, hx, hrest⟩ | ⟨f, hx⟩ := endsIn_bind ends
  · exact hk a s₁ s' (h s s₁ hs (.value hx)) hrest
  · exact h s s' hs (.failure hx)

theorem upholds_get {k : Store → Run α} (hk : ∀ s, (k s).Upholds P) : (get >>= k).Upholds P :=
  fun s s' hs ends => hk s s s' hs <| by
    cases ends with
    | value ends => exact .value ends
    | failure ends => exact .failure ends

theorem upholds_modify {f : Store → Store} (h : ∀ s : Store, P s → P (f s)) :
    (modify f : Run PUnit).Upholds P := by
  intro s s' hs ends
  cases ends with
  | value ends =>
    cases ends
    exact h s hs
  | failure ends => cases ends

section Upheld

variable (hP : Store.Upheld P)
include hP

theorem upholds_release (place : Nat) : (release place).Upholds P :=
  upholds_modify fun _ hs => hP.release hs place

theorem upholds_releaseModules (place : Nat) : (releaseModules place).Upholds P := by
  have hall (es : List (String × Nat)) : (es.forM fun e => release e.2).Upholds P := by
    induction es with
    | nil => exact upholds_pure _
    | cons e es ih => exact (upholds_release hP e.2).bind fun _ => ih
  refine upholds_get fun s => ?_
  split
  · exact (hall _).bind fun _ => upholds_modify fun _ hs => hP.changeModules hs _ _
  · exact upholds_pure _

theorem upholds_setTime (place : Nat) (time : Float) : (setTime place time).Upholds P := by
  unfold setTime
  refine Upholds.bind (upholds_modify fun _ hs => hP.forgetting hs place time) fun _ =>
    upholds_get fun s => ?_
  split
  · exact upholds_releaseModules hP _
  · exact upholds_pure _

theorem upholds_dropSession (place : Nat) : (dropSession place).Upholds P := by
  refine upholds_get fun s => ?_
  split
  · exact (upholds_releaseModules hP _).bind fun _ =>
      (upholds_modify fun _ hs => hP.changeModules hs _ _).bind fun _ => upholds_release hP place
  · exact upholds_pure _

end Upheld
end Run

/-- What owners of sessions come to, who may set times and let go of sessions besides. -/
inductive Engine.Comes (e : Engine) (s : Store) : Store → Prop
  | refl : Comes e s s
  | offered {t u : Store} {α : Type} {x : Run α} (before : Comes e s t) (offered : e.Offers t x)
      (ends : x.EndsIn t u) : Comes e s u
  | setTime {t u : Store} (before : Comes e s t) {place : Nat} {time : Float}
      (ends : (Run.setTime place time).EndsIn t u) : Comes e s u
  | dropSession {t u : Store} (before : Comes e s t) {place : Nat}
      (ends : (Run.dropSession place).EndsIn t u) : Comes e s u

/-- A session can be begun. -/
theorem Engine.comes_opened (e : Engine) (s : Store) (tree : Tree) (options : Options) (time : Float)
    (h : Forall₂ (Keyed.Alike (Value.Alike s.bound)) options.overrides options.overrides) :
    e.Comes s (s.opened tree options time) :=
  .offered .refl (.newSession tree options time h)
    (.value (Run.newSession_run tree time s options))

/-- A session can be asked. -/
theorem Engine.Comes.query {e : Engine} {s t u : Store} (h : e.Comes s t) {place : Nat} {q : Query}
    {a : Option Result} (hq : e.query place q t = .ok a u) : e.Comes s u :=
  .offered h (.query place q) (.value hq)

/-- A property that is kept by what is offered, and where times are set and sessions are let go of, is
kept by everything that is done. -/
theorem Engine.Comes.upheld {e : Engine} {P : Store → Prop} (hP : Store.Upheld P)
    (offered : ∀ {s t : Store} {α : Type} {y : Run α}, P s → e.Offers s y → y.EndsIn s t → P t)
    {s t : Store} (hs : P s) (h : e.Comes s t) : P t := by
  induction h with
  | refl => exact hs
  | offered _ h ends ih => exact offered ih h ends
  | setTime _ ends ih => exact Run.upholds_setTime hP _ _ _ _ ih ends
  | dropSession _ ends ih => exact Run.upholds_dropSession hP _ _ _ ih ends

/-- Whatever is done, results are what executions came to. -/
theorem Store.settled_of_comes {fuel : Nat} {s t : Store} (hs : s.Settled)
    (h : (Engine.ofFuel fuel).Comes s t) : t.Settled :=
  h.upheld upheld_settled Settled.offered hs

end Workbook
