/-
Engines keep the invariant of a custody.

The parts of an engine that lead into sessions keep it if the answers to the requests that
they make do; with what `Simulation.Responds.next` says of the other parts, so does the engine
made from them.  `serves` is the recursion over how deep requests nest.
-/
import Workbook.Proofs.Custody

open List (Forall₂)

namespace Workbook
namespace Custody
variable {K : Custody} {w : K.World}

/-! ## Parts that ask nothing -/

/-- Freezing what an expression came to. -/
theorem keeps_freeze {n : Native} {v : Value} (hn : K.native w n) (hv : K.typed w v) :
    K.Keeps w (do Run.freeze n; return Outcome.value n v) K.Computed := by
  refine Keeps.bind (R := fun w' _ => K.native w' n ∧ K.typed w' v ∧ K.Fixed w' n) ?_
    fun w' _ _ h => keeps_pure ⟨.value h.1 h.2.1, ?_⟩
  · refine keeps_modifyGet fun s hi => ?_
    obtain ⟨w', hw, hi', hf⟩ := K.fix hi hn
    exact ⟨w', hw, hi', hn.mono (K.within hw), hv.mono (K.within hw), hf⟩
  · rintro _ _ ⟨⟩
    exact h.2.2

theorem keeps_compiled (place : Nat) (σ : Session) (source : Source) :
    K.Keeps w (Engine.compiled place σ source) fun _ _ => True := by
  unfold Engine.compiled
  split
  · exact keeps_pure trivial
  · split
    · exact keeps_pure trivial
    · exact (keeps_changeSession fun s hi => K.scripts (·.insert _ _) hi).bind
        (T := fun _ _ => True) fun _ _ _ _ => keeps_pure trivial

/-- Works that are put off, each of which its lazy entry is made for. -/
theorem exists_postponing {s : Store} (hi : K.Inv w s s) {ws : List (String × Work)}
    (hws : ∀ x ∈ ws, ∀ v, x.2 ≠ .value v) :
    ∃ w', K.le w w' ∧ K.Inv w' (s.postponing ws) (s.postponing ws) ∧
      ∀ (i : Nat) (x : String × Work), ws[i]? = some x → K.Made w' (s.thunks.size + i) x.2 := by
  induction ws generalizing w s with
  | nil => exact ⟨w, K.le_refl w, by simpa [Store.postponing] using hi, fun i x h => nomatch h⟩
  | cons x ws ih =>
    obtain ⟨w₁, h₁, hi₁, hx⟩ := K.newThunk x.2 (hws x List.mem_cons_self) hi
    obtain ⟨w₂, h₂, hi₂, hrest⟩ := ih hi₁ fun y hy => hws y (List.mem_cons_of_mem _ hy)
    have hsize : (s.addThunk x.2).thunks.size = s.thunks.size + 1 := Array.size_push ..
    have hstore : (s.addThunk x.2).postponing ws = s.postponing (x :: ws) := by
      simp [Store.postponing, Store.addThunk]
    refine ⟨w₂, K.le_trans h₁ h₂, hstore ▸ hi₂, fun i y hy => ?_⟩
    cases i with
    | zero =>
      cases hy
      exact K.made_mono h₂ hx
    | succ i =>
      have hmade := hrest i y hy
      rwa [hsize, Nat.add_assoc, Nat.add_comm 1 i] at hmade

/-- The entries of a folder, with what each is made for. -/
theorem keeps_lazyEntries (place : Nat) (o : Outline) (key : String) :
    K.Keeps w (Engine.lazyEntries place o key) fun w => o.Lists place key (K.Made w) := by
  refine ⟨fun s t hi => ?_⟩
  obtain rfl := K.same hi
  have hworks : ∀ x ∈ o.members place key, ∀ v, x.2 ≠ .value v := by
    intro x hx
    obtain hx | hx := List.mem_append.1 hx <;> obtain ⟨y, -, rfl⟩ := List.mem_map.1 hx <;> simp
  obtain ⟨w', hw, hi', hmade⟩ := exists_postponing hi hworks
  rw [Engine.lazyEntries_run]
  exact ⟨w', hw, hi', rfl, s.thunks.size, rfl, hmade⟩

theorem keeps_changeModules (place : Nat) (f : Modules → Modules) :
    K.Keeps w (Run.changeModules place f) fun _ _ => True :=
  keeps_modify fun _ => K.changeModules f

/-- A new session of a module. -/
theorem keeps_newSessionWith (modules : Nat) (tree : Tree) (settings : Settings)
    {overrides : List (String × Value)} (time : Float)
    (h : Forall₂ (Keyed.Alike (Value.Alike (K.pairing w))) overrides overrides) :
    K.Keeps w (Run.newSessionWith modules tree settings overrides time) K.Inner := by
  have hlib : K.Keeps w Formula.newLibrary K.typed :=
    .of_rel (Simulation.rel_newLibrary (S := K.simulation)) fun _ _ _ _ => typed_eq
  refine hlib.bind fun w₁ h₁ library hl => ?_
  have hmath : K.Keeps w₁ Formula.newMath K.typed :=
    .of_rel (Simulation.rel_newMath (S := K.simulation)) fun _ _ _ _ => typed_eq
  refine hmath.bind fun w₂ h₂ math hm => keeps_modifyGet fun s hi => ?_
  refine K.newSession hi ⟨⟨rfl, ?_, rfl, rfl, ?_, hm⟩, ?_, ?_, ?_⟩ ⟨rfl, rfl, rfl⟩
  · exact Value.locals_mono h (K.within (K.le_trans h₁ h₂))
  · exact hl.mono (K.within h₂)
  all_goals exact fun _ h => absurd h List.not_mem_nil

theorem typed_ofEntries {o : Outline} {place : Nat} {key : String} {es : Entries}
    (h : o.Lists place key (K.Made w) es) : K.typed w (.ofEntries es) :=
  h.ofEntries (K.thunks w)

/-- A session that is there. -/
theorem keeps_session (place : Nat) : K.Keeps w (Run.session place)
    fun w σ => σ.Valid (K.pairing w) ∧ K.Outlined w place σ.outline := by
  refine keeps_get fun s hi => ?_
  cases hs : (s.sessions[place]?).filter (·.alive) with
  | none => exact keeps_fail _
  | some σ =>
    have hp := (Option.filter_eq_some_iff.1 hs).1
    exact keeps_pure ⟨K.valid hi hp, K.outlined hi hp⟩

theorem keeps_newResult {o : Outcome} (h : Outcome.Alike (K.pairing w) o o) :
    K.Keeps w (Run.newResult o) fun w r => r.outcome = o ∧ Result.Alike (K.pairing w) r r := by
  have hid : K.Keeps w Run.freshId fun w i => (K.pairing w).idents i i := by
    refine .of_rel K.simulation.freshId fun w' _ i j hij => ?_
    obtain rfl : i = j := (K.narrow w').idents hij
    exact ⟨rfl, hij⟩
  exact hid.bind fun w' hw i hi => keeps_pure ⟨rfl, hi, h.mono (K.within hw)⟩

/-! ## Parts that ask -/

namespace Serves

variable {e : Engine} (he : K.Serves e)
include he

/-- What work comes to: a value, and one that the expression may come to if it is to
evaluate one. -/
theorem perform {t : Nat} {work : Work} (hm : K.Made w t work) :
    K.Keeps w (e.perform work) fun w v => K.typed w v ∧
      ∀ place key, work = .expression place key → K.Settles w place key v := by
  cases work with
  | value v => exact keeps_pure ⟨K.value hm, fun _ _ h => nomatch h⟩
  | expression place key =>
    refine keeps_get fun s hi => ?_
    cases ha : (s.sessions[place]?).any (·.alive) with
    | false =>
      refine keeps_pure ⟨.null, fun place' key' h => ?_⟩
      cases h
      exact K.gone key hi ha
    | true =>
      refine (he.evaluate w place key).bind fun w' _ o ho => ?_
      obtain ⟨hr, hs⟩ := ho
      cases o with
      | none =>
        refine keeps_pure ⟨.null, fun place' key' h => ?_⟩
        cases h
        exact hs
      | some r =>
        refine keeps_pure ⟨(hr r rfl).outcome.toValue, fun place' key' h => ?_⟩
        cases h
        exact hs
  | folder place key =>
    refine keeps_get fun s hi => ?_
    split
    · exact (he.folderValue place key).imp fun _ _ _ hv => ⟨hv, fun _ _ h => nomatch h⟩
    · exact keeps_pure ⟨.null, fun _ _ h => nomatch h⟩

theorem force (t : Nat) : K.Keeps w (e.force t) K.typed := by
  refine keeps_get fun s hi => ?_
  cases ht : s.thunks[t]? with
  | none => exact keeps_pure .null
  | some thunk =>
    cases thunk with
    | done v => exact keeps_pure (K.done hi ht)
    | pending work =>
      have hm := K.pending hi ht
      refine (he.perform hm).bind fun w₁ h₁ v hv => ?_
      refine keeps_get fun s₁ hi₁ => ?_
      have hfill : K.Keeps w₁ (do modify (·.settle t v); return v) K.typed :=
        (keeps_modify fun s hi => K.settle hi (K.made_mono h₁ hm) hv.1 hv.2).bind
          fun w₂ h₂ _ _ => keeps_pure (hv.1.mono (K.within h₂))
      cases ht₁ : s₁.thunks[t]? with
      | none => exact hfill
      | some thunk =>
        cases thunk with
        | done first => exact keeps_pure (K.done hi₁ ht₁)
        | pending _ => exact hfill

theorem executeFormula (place : Nat) (σ : Session) (node : Outline.Expression) :
    K.Keeps w (e.executeFormula place σ node) K.Computed := by
  unfold Engine.executeFormula
  simp only
  cases Formula.compile ⟨node.path, σ.sourceText node⟩ with
  | error ps => exact keeps_pure (computed_unreadableFormula _ ps)
  | ok body =>
    have hrun : K.Keeps w
        (e.runFormula (.folder place node.parent) σ.settings.maxCallDepth body) K.typed :=
      .of_rel (he.answers.runFormula (.folder _ (K.sessions w place)) _ _) fun _ _ _ _ => typed_eq
    refine hrun.outcome.bind fun w₁ _ r hr => ?_
    cases r with
    | error f => exact keeps_pure (computed_failure _ _)
    | ok v =>
      have hv := hr v rfl
      exact (he.native hv).bind fun w₂ h₂ n hn => keeps_freeze hn (hv.mono (K.within h₂))

theorem executeScript (place : Nat) (σ : Session) (node : Outline.Expression) :
    K.Keeps w (e.executeScript place σ node) K.Computed := by
  refine (keeps_compiled place σ _).bind fun w₁ _ c _ => ?_
  cases c with
  | error ps => exact keeps_pure (computed_unreadableScript ps)
  | ok p =>
    have hrun : K.Keeps w₁
        (e.runScript (.folder place node.parent) σ.settings.maxCallDepth node.name p.body)
        K.native :=
      .of_rel (he.answers.runScript K.thorough.toScripting (.folder _ (K.sessions w₁ place)) _ _ _)
        fun _ _ _ _ => native_eq
    refine hrun.outcome.bind fun w₂ _ r hr => ?_
    cases r with
    | error f => exact keeps_pure (computed_failure _ _)
    | ok n =>
      have hn := hr n rfl
      refine keeps_get fun s hi => ?_
      have hv := (K.alike hi).value hn
      generalize n.toValue s = r at hv ⊢
      cases hv with
      | error f => exact keeps_pure (computed_failure _ _)
      | ok hv => exact keeps_freeze hn hv

/-! ## Folders -/

theorem firstResult (place : Nat) (keys : List String) :
    K.Keeps w (e.firstResult place keys) fun w o => ∀ r, o = some r → Result.Alike (K.pairing w) r r := by
  induction keys generalizing w with
  | nil => exact keeps_pure fun _ h => nomatch h
  | cons key rest ih =>
    refine (he.evaluate w place key).bind fun w' _ o ho => ?_
    cases o with
    | none => exact ih
    | some r => exact keeps_pure ho.1

theorem folderValueOf (place : Nat) (key : String) :
    K.Keeps w (e.folderValue place key) K.typed := by
  refine keeps_get fun s hi => ?_
  cases hs : s.sessions[place]? with
  | none => exact keeps_pure .null
  | some σ =>
    have hv := K.valid hi hs
    have ho := K.outlined hi hs
    simp only
    split
    · exact keeps_pure .null
    · refine (he.firstResult place _).bind fun w₁ h₁ r hr => ?_
      cases r with
      | some r => exact keeps_pure (hr r rfl).outcome.toValue
      | none =>
        simp only
        cases hl : σ.folderValues.lookup key with
        | some v => exact keeps_pure ((hv.folderValues _ (Keyed.mem_of_lookup hl)).mono (K.within h₁))
        | none =>
          refine (keeps_lazyEntries place σ.outline key).bind fun w₂ h₂ es hes => ?_
          refine (keeps_changeSession fun s hi =>
            K.keepFolder hi (K.outlined_mono (K.le_trans h₁ h₂) ho) hes).bind fun w₃ h₃ _ _ => ?_
          exact keeps_pure ((typed_ofEntries hes).mono (K.within h₃))

/-! ## Imports -/

/-- The value under a key; one that an expression may come to if it is one. -/
theorem valueAt? (place : Nat) (o : Outline) (key : String) :
    K.Keeps w (e.valueAt? place o key) fun w r => ∀ v, r = some v →
      K.typed w v ∧ ((o.expression? key).isSome → K.Settles w place key v) := by
  unfold Engine.valueAt?
  split
  · refine (he.evaluate w place key).bind fun w' _ r hr => keeps_pure ?_
    rintro _ ⟨⟩
    refine ⟨?_, fun _ => hr.2⟩
    cases r with
    | none => exact .null
    | some r => exact (hr.1 r rfl).outcome.toValue
  · rename_i h
    split
    · refine (he.folderValue place key).bind fun w' _ v hv => keeps_pure ?_
      rintro _ ⟨⟩
      exact ⟨hv, fun h' => absurd h' h⟩
    · exact keeps_pure fun _ h => nomatch h

theorem importRelative {place : Nat} {σ : Session} (hv : σ.Valid (K.pairing w))
    (ho : K.Outlined w place σ.outline) (folder specifier : String) :
    K.Keeps w (e.importRelative place σ folder specifier) K.typed := by
  unfold Engine.importRelative
  split
  · exact keeps_fail _
  · rename_i key _
    cases hl : σ.imports.lookup key with
    | some v => exact keeps_pure (hv.imports _ (Keyed.mem_of_lookup hl))
    | none =>
      refine (he.valueAt? place σ.outline key).bind fun w₁ h₁ r hr => ?_
      cases r with
      | none => exact keeps_fail _
      | some v =>
        obtain ⟨hv, hs⟩ := hr v rfl
        refine (keeps_changeSession fun s hi =>
          K.keepImport hi (K.outlined_mono h₁ ho) hv hs).bind fun w₂ h₂ _ _ => ?_
        exact keeps_pure (hv.mono (K.within h₂))

theorem loadModule {σ : Session} (hv : σ.Valid (K.pairing w)) (specifier : String) (tree : Tree) :
    K.Keeps w (e.loadModule σ specifier tree) fun _ _ => True := by
  refine (keeps_newSessionWith _ _ _ _ hv.alike.overrides).bind fun w₁ _ place hp => ?_
  refine (keeps_changeModules _ _).bind fun w₂ h₂ _ _ => ?_
  refine (he.folderValue place "").bind fun w₃ h₃ root _ => ?_
  refine (keeps_changeModules _ _).bind fun w₄ h₄ _ _ => ?_
  cases Import.checked root with
  | error f =>
    have hp := K.inner_mono (K.le_trans h₂ (K.le_trans h₃ h₄)) hp
    exact (keeps_changeSession fun s hi => K.release hi hp).bind fun _ _ _ _ => keeps_fail _
  | ok _ =>
    exact (keeps_changeModules _ _).bind (T := fun _ _ => True) fun _ _ _ _ => keeps_pure trivial

theorem moduleSession {σ : Session} (hv : σ.Valid (K.pairing w)) (specifier : String) :
    K.Keeps w (e.moduleSession σ specifier) fun _ _ => True := by
  refine keeps_get fun s hi => ?_
  split
  · exact keeps_fail _
  · rename_i m _
    split
    · exact keeps_pure trivial
    · cases m.loading.contains specifier with
      | true => exact Keeps.bind (R := fun _ _ => False) (keeps_fail _) fun _ _ _ h => h.elim
      | false =>
        simp only [Bool.false_eq_true, if_false]
        split
        · exact keeps_fail _
        · exact he.loadModule hv specifier _

theorem importValue (place : Nat) (folder : String) (vs : List Value) :
    K.Keeps w (e.importValue place folder vs) K.typed := by
  have hchecked {w : K.World} {v : Value} (hv : K.typed w v) :
      K.Keeps w (Run.ofFaulty (Import.checked v)) K.typed := by
    cases v with
    | error kind message _ => exact keeps_fail _
    | _ => exact keeps_pure hv
  unfold Engine.importValue
  split
  · rename_i specifier _
    refine (keeps_session place).bind fun w₁ h₁ σ hσ => ?_
    split
    · exact (he.importRelative hσ.1 hσ.2 folder specifier).bind fun _ _ _ hv => hchecked hv
    · exact (he.moduleSession hσ.1 specifier).bind fun _ _ m _ =>
        (he.folderValue m "").bind fun _ _ _ hv => hchecked hv
  · exact keeps_fail _

/-! ## The next level -/

/-- An engine keeps the invariant if the one that it asks does and evaluating does. -/
theorem next (hev : ∀ (w : K.World) (place : Nat) (key : String),
      K.Keeps w (e.evaluate place key) (K.Evaluated place key)) (fuel : Nat) :
    K.Serves ⟨fun r => Engine.answer e fuel r⟩ where
  answers := by
    refine he.answers.next K.thorough ⟨?_, ?_, ?_, ?_⟩ (.inl rfl)
    · intro w a b h
      obtain rfl : a = b := (K.narrow w).thunks h
      exact (he.force a).rel fun _ _ _ hv => hv
    · intro w a b key h
      obtain rfl : a = b := (K.narrow w).sessions h
      refine (hev w a key).rel fun w' _ r hr => ?_
      cases r with
      | none => exact .none
      | some r => exact .some (hr.1 r rfl)
    · intro w a b key h
      obtain rfl : a = b := (K.narrow w).sessions h
      exact (he.folderValueOf a key).rel fun _ _ _ hv => hv
    · intro w a b vs ws folder h hvs
      obtain rfl : a = b := (K.narrow w).sessions h
      obtain rfl := Value.eq_of_forall (Value.forall_mono hvs (K.narrow w))
      exact (he.importValue a folder vs).rel fun _ _ _ hv => hv
  evaluate := hev

end Serves

/-! ## Evaluating -/

/-- A custody that leaves the bookkeeping of a session alone: it does not say which
expressions are being executed, how much was counted, or what any of them comes to. -/
structure Lenient (K : Custody) (place : Nat) : Prop where
  note : ∀ {w s} (f : List String → List String) (g : Stats → Stats), K.Inv w s s →
    K.Inv w (s.changeSession place fun σ => { σ with inFlight := f σ.inFlight, stats := g σ.stats })
      (s.changeSession place fun σ => { σ with inFlight := f σ.inFlight, stats := g σ.stats })
  record : ∀ {w s key r}, K.Inv w s s → Result.Alike (K.pairing w) r r →
    K.Computed w r.outcome →
    K.Inv w
      (s.changeSession place fun σ =>
        { σ with inFlight := σ.inFlight.erase key, results := (key, r) :: σ.results })
      (s.changeSession place fun σ =>
        { σ with inFlight := σ.inFlight.erase key, results := (key, r) :: σ.results })
  settles : ∀ w key v, K.Settles w place key v

namespace Lenient

variable {place : Nat} (hK : K.Lenient place)
include hK

theorem count (f : Stats → Stats) : K.Keeps w (Run.count place f) fun _ _ => True :=
  keeps_changeSession fun _ => hK.note id f

theorem execute {e : Engine} (he : K.Serves e) (σ : Session)
    (node : Outline.Expression) : K.Keeps w (e.execute place σ node) K.Computed := by
  refine (hK.count _).bind fun w' _ _ _ => ?_
  split
  · exact he.executeFormula place σ node
  · exact he.executeScript place σ node

/-- Evaluating keeps the invariant of a lenient custody. -/
theorem evaluate {e : Engine} (he : K.Serves e)
    (key : String) : K.Keeps w (e.evaluate place key) (K.Evaluated place key) := by
  refine keeps_get fun s hi => ?_
  cases hs : s.sessions[place]? with
  | none => exact keeps_pure ⟨(fun _ h => nomatch h), hK.settles _ _ _⟩
  | some σ =>
    have hv := K.valid hi hs
    simp only
    split
    · exact keeps_pure ⟨(fun _ h => nomatch h), hK.settles _ _ _⟩
    · rename_i r _ hr
      refine (hK.count _).bind fun w₁ h₁ _ _ => keeps_pure ⟨?_, hK.settles _ _ _⟩
      rintro _ ⟨⟩
      exact (hv.results _ (Keyed.mem_of_lookup hr)).mono (K.within h₁)
    · split
      · refine (hK.count _).bind fun w₁ _ _ _ => ?_
        rw [map_eq_pure_bind]
        refine (keeps_newResult (.failure _ _)).bind fun w₂ _ r hr =>
          keeps_pure ⟨?_, hK.settles _ _ _⟩
        rintro _ ⟨⟩
        exact hr.2
      · refine (keeps_changeSession fun s => hK.note (key :: ·) id).bind fun w₁ _ _ _ => ?_
        refine (hK.execute he σ _).bind fun w₂ _ o ho => ?_
        refine (keeps_newResult ho.1).bind fun w₃ h₃ r hr => ?_
        obtain ⟨rfl, hr⟩ := hr
        refine (keeps_changeSession fun s hi => hK.record hi hr (ho.mono h₃)).bind
          fun w₄ h₄ _ _ => keeps_pure ⟨?_, hK.settles _ _ _⟩
        rintro _ ⟨⟩
        exact hr.mono (K.within h₄)

end Lenient

/-- Every engine keeps the invariant if evaluating does, as far as it asks an engine that
does. -/
theorem serves (K : Custody)
    (hev : ∀ fuel, K.Serves (Engine.ofFuel fuel) → ∀ (w : K.World) (place : Nat) (key : String),
      K.Keeps w ((Engine.ofFuel fuel).evaluate place key) (K.Evaluated place key)) :
    ∀ fuel, K.Serves (Engine.ofFuel fuel)
  | 0 => ⟨Simulation.responds_zero, fun _ _ _ => ⟨fun _ _ hi => K.stuck hi⟩⟩
  | fuel + 1 => (serves K hev fuel).next (hev fuel (serves K hev fuel)) fuel

end Custody
end Workbook
