/-
What an evaluation does not execute, it does not depend on.

A session looks names up, tells what kind of thing they are, lists folders, imports and compiles;
the text of an expression plays no part in any of this until it is executed.  So two workbooks
that agree but for one expression cannot be told apart by whatever does not execute it:
`unexecuted_expression_is_free` says so of every sequence of queries.
-/
import Mathlib
import Workbook.Proofs.Outline.Crawl
import Workbook.Proofs.Session.Revision

open List (Forall₂)

namespace Workbook
namespace Revision

variable {v : Revision} {α β : Type} {place : Nat} {σ σ' : Session}

/-! ## Sessions -/

theorem spares_pure (a : α) : v.Spares (pure a : Run α) :=
  rel_pure rfl

theorem spares_fault (f : Fault) : v.Spares (Run.fault f : Run α) :=
  rel_fail _

theorem Spares.map {x : Run α} (h : v.Spares x) (f : α → β) : v.Spares (f <$> x) := by
  rw [map_eq_pure_bind]
  exact h.bind fun a => spares_pure (f a)

theorem spares_ofFaulty : ∀ x : Except Fault α, v.Spares (Run.ofFaulty x)
  | .ok a => spares_pure a
  | .error f => spares_fault f

theorem Spares.mapM {f : α → Run β} (h : ∀ a, v.Spares (f a)) (as : List α) :
    v.Spares (as.mapM f) := by
  induction as with
  | nil => exact spares_pure []
  | cons a as ih =>
    rw [List.mapM_cons]
    exact (h a).bind fun b => ih.bind fun bs => spares_pure (b :: bs)

theorem Spares.foldlM {f : β → α → Run β} (h : ∀ b a, v.Spares (f b a)) (as : List α) (b : β) :
    v.Spares (as.foldlM f b) := by
  induction as generalizing b with
  | nil => exact spares_pure b
  | cons a as ih =>
    rw [List.foldlM_cons]
    exact (h b a).bind fun b => ih b

theorem spares_changeSession {f : Session → Session} (hf : Apart f)
    (hbegun : ∀ σ, σ.begun ⊆ (f σ).begun) (place : Nat) :
    v.Spares (Run.changeSession place f) where
  onward s _ := onward_changeSession hf hbegun place s
  value _ a _ _ _ := ⟨a, rfl⟩
  ends s _ _ := ⟨rfl, (store_changeSession hf place s).symm⟩

/-- A change of what a session has computed or counted, except for its results. -/
theorem spares_keep {f : Session → Session} {place : Nat} (hf : Apart f)
    (hbegun : ∀ σ, (f σ).begun = σ.begun) : v.Spares (Run.changeSession place f) :=
  spares_changeSession hf (fun σ => (hbegun σ).symm ▸ List.Subset.refl _) place

theorem spares_count (place : Nat) (f : Stats → Stats) : v.Spares (Run.count place f) :=
  spares_keep (fun _ _ _ => rfl) fun _ => rfl

theorem spares_newResult (o : Outcome) : v.Spares (Run.newResult o) :=
  (spares_quiet (quiet_modifyGet fun _ _ => rfl)).bind fun _ => spares_pure _

theorem spares_newThunk (work : Work) : v.Spares (Run.newThunk work) :=
  spares_quiet (quiet_modifyGet fun _ _ => rfl)

theorem spares_changeModules (place : Nat) (f : Modules → Modules) :
    v.Spares (Run.changeModules place f) :=
  spares_quiet (quiet_modifyGet fun _ _ => rfl)

/-- New sessions stand behind the revised one. -/
theorem spares_addSession (σ : Session) : v.Spares (Run.addSession σ) where
  onward s _ := by
    refine ⟨?_, ?_⟩
    · rintro ⟨τ, hτ, h⟩
      exact ⟨τ, Store.push_getElem? hτ, h⟩
    · unfold Reached Store.begun
      cases hτ : s.sessions[v.place]? with
      | none => simp
      | some τ =>
        have hlast : ((Run.addSession σ).last s).sessions[v.place]? = some τ :=
          Store.push_getElem? hτ
        rw [hlast]
        exact id
  value _ a _ _ _ := ⟨a, rfl⟩
  ends s hs _ := by
    refine ⟨Array.size_modify.symm, ?_⟩
    rw [store_eq, store_eq]
    congr 1
    apply Array.ext_getElem?
    intro i
    have hlt := hs.lt
    simp only [Array.getElem?_modify, Array.getElem?_push, Array.size_modify]
    by_cases hi : i = s.sessions.size
    · have hne : v.place ≠ i := by omega
      simp [hi]
      omega
    · simp [hi]

/-! ## Sessions that were looked up -/

/-- The session at a place, if it is there. -/
theorem rel_session (place : Nat) :
    v.Rel (Run.session place) (Run.session place) (v.Pairs place) := by
  refine rel_look fun s hs => ?_
  have h := SessionSimulation.filter_alike (f := (·.alive)) (g := (·.alive))
    (fun _ _ h => h.alive) (hs.pairs place)
  generalize (s.sessions[place]?).filter (·.alive) = a at h ⊢
  generalize ((v.store s).sessions[place]?).filter (·.alive) = b at h ⊢
  cases h with
  | none => exact rel_fail _
  | some h => exact rel_pure h

namespace Pairs

/-- Both sessions are there or neither is. -/
theorem any_alive {a b : Option Session} (h : Option.Rel (v.Pairs place) a b) :
    b.any (·.alive) = a.any (·.alive) := by
  cases h with
  | none => rfl
  | some h => exact h.alive.symm

variable (h : v.Pairs place σ σ')
include h

/-- Folders are listed alike. -/
theorem lazyEntries (key : String) :
    Engine.lazyEntries place σ'.outline key = Engine.lazyEntries place σ.outline key := by
  have hxs := filter_forall₂ (p := fun e => !Engine.sentinels.contains (Text.lower e.name))
    (q := fun e => !Engine.sentinels.contains (Text.lower e.name))
    (fun _ _ hx => by rw [hx.name_eq]) (h.outline.childExpressions key)
  unfold Engine.lazyEntries
  simp only [h.outline.childFolders]
  congr 1
  generalize ([] : Entries) = out
  generalize (σ.outline.childExpressions key).filter _ = xs at hxs ⊢
  generalize (σ'.outline.childExpressions key).filter _ = ys at hxs ⊢
  induction hxs generalizing out with
  | nil => rfl
  | cons hx _ ih =>
    rw [List.foldlM_cons, List.foldlM_cons, hx.name_eq, hx.key_eq]
    simp only [ih]

theorem valueAt? (e : Engine) (key : String) :
    e.valueAt? place σ'.outline key = e.valueAt? place σ.outline key := by
  unfold Engine.valueAt?
  rw [h.outline.isSome_expression?, h.outline.folder?]

theorem moduleSession (e : Engine) (specifier : String) :
    e.moduleSession σ' specifier = e.moduleSession σ specifier := by
  rw [h.same]
  rfl

/-- An expression whose text is the same is executed alike. -/
theorem execute (e : Engine) {x : Outline.Expression} (hx : σ'.sourceText x = σ.sourceText x) :
    e.execute place σ' x = e.execute place σ x := by
  have hcompiled : Engine.compiled place σ' = Engine.compiled place σ := by
    rw [h.same]
    rfl
  have hsettings : σ'.settings = σ.settings := by
    rw [h.same]
    rfl
  unfold Engine.execute Engine.executeFormula Engine.executeScript
  rw [hx, hcompiled, hsettings]

theorem evaluateAll (e : Engine) :
    e.evaluateAll place σ'.outline = e.evaluateAll place σ.outline := by
  unfold Engine.evaluateAll
  congr 1
  have hxs := h.outline.expressions
  generalize σ.outline.expressions = xs at hxs ⊢
  generalize σ'.outline.expressions = ys at hxs ⊢
  induction hxs with
  | nil => rfl
  | cons hx _ ih => rw [List.mapM_cons, List.mapM_cons, hx.key_eq, hx.path_eq, ih]

end Pairs

/-! ## Engines -/

/-- An engine whose answers are not changed by the revision. -/
structure Serves (v : Revision) (e : Engine) : Prop where
  answers : v.simulation.Responds e e
  evaluate : ∀ place key, v.Spares (e.ask (.evaluate place key))

theorem Rel.spares {x : Run Value} (h : v.Rel x x (Value.Alike .same)) : v.Spares x :=
  h.imp fun _ _ => Value.eq_of_alike

theorem Spares.alike {x : Run Value} (h : v.Spares x) : v.Rel x x (Value.Alike .same) :=
  h.imp fun a _ hab => hab ▸ a.alike_self

namespace Serves

variable {e : Engine} (he : v.Serves e)
include he

theorem folderValue (place : Nat) (key : String) : v.Spares (e.ask (.folderValue place key)) :=
  Rel.spares (he.answers.folderValue (w := ()) key rfl)

/-! ### Lazy entries -/

theorem perform (work : Work) : v.Spares (e.perform work) := by
  cases work with
  | value x => exact spares_pure x
  | expression place key =>
    refine rel_look fun s hs => ?_
    rw [Pairs.any_alive (hs.pairs place)]
    split
    · refine (he.evaluate place key).bind fun r => ?_
      cases r with
      | none => exact spares_pure _
      | some r => exact spares_pure _
    · exact spares_pure _
  | folder place key =>
    refine rel_look fun s hs => ?_
    rw [Pairs.any_alive (hs.pairs place)]
    split
    · exact he.folderValue place key
    · exact spares_pure _

theorem force (thunk : Nat) : v.Spares (e.force thunk) := by
  refine rel_look fun s _ => ?_
  show v.Spares _
  cases s.thunks[thunk]? with
  | none => exact spares_pure _
  | some t =>
    cases t with
    | done x => exact spares_pure x
    | pending work =>
      refine (he.perform work).bind fun x => rel_look fun s _ => ?_
      have hfill : v.Spares (do Run.settle thunk x; return x) :=
        (spares_quiet (quiet_modifyGet fun _ _ => rfl)).bind fun _ => spares_pure x
      show v.Spares _
      cases s.thunks[thunk]? with
      | none => exact hfill
      | some t =>
        cases t with
        | done first => exact spares_pure first
        | pending _ => exact hfill

/-! ### Folders -/

theorem firstResult (place : Nat) (keys : List String) : v.Spares (e.firstResult place keys) := by
  induction keys with
  | nil => exact spares_pure none
  | cons key rest ih =>
    refine (he.evaluate place key).bind fun r => ?_
    cases r with
    | none => exact ih
    | some r => exact spares_pure _

omit he in
theorem lazyEntries (place : Nat) (o : Outline) (key : String) :
    v.Spares (Engine.lazyEntries place o key) :=
  (Spares.foldlM (fun _ _ => (spares_newThunk _).bind fun _ => spares_pure _) _ _).bind fun _ =>
    Spares.foldlM (fun _ _ => (spares_newThunk _).bind fun _ => spares_pure _) _ _

theorem folderValueOf (place : Nat) (key : String) : v.Spares (e.folderValue place key) := by
  refine rel_look fun s hs => ?_
  have hpairs := hs.pairs place
  generalize s.sessions[place]? = a at hpairs ⊢
  generalize (v.store s).sessions[place]? = b at hpairs ⊢
  cases hpairs with
  | none => exact spares_pure _
  | @some σ σ' h =>
    simp only [h.outline.folder?, h.folderValues, h.lazyEntries]
    split
    · exact spares_pure _
    · refine (he.firstResult place _).bind fun r => ?_
      cases r with
      | some r => exact spares_pure _
      | none =>
        simp only
        split
        · exact spares_pure _
        · exact (lazyEntries place _ key).bind fun es =>
            Spares.bind (spares_keep (fun _ _ _ => rfl) fun _ => rfl) fun _ => spares_pure _

/-! ### Imports -/

theorem valueAt? (place : Nat) (o : Outline) (key : String) :
    v.Spares (e.valueAt? place o key) := by
  unfold Engine.valueAt?
  split
  · exact (he.evaluate place key).bind fun _ => spares_pure _
  · split
    · exact (he.folderValue place key).bind fun _ => spares_pure _
    · exact spares_pure _

theorem importRelative {place : Nat} {σ σ' : Session} (h : v.Pairs place σ σ')
    (folder specifier : String) :
    v.Rel (e.importRelative place σ folder specifier) (e.importRelative place σ' folder specifier)
      Eq := by
  unfold Engine.importRelative
  split
  · exact spares_fault _
  · simp only [h.imports, h.valueAt?]
    split
    · exact spares_pure _
    · refine (he.valueAt? place _ _).bind fun x => ?_
      cases x with
      | none => exact spares_fault _
      | some x =>
        exact Spares.bind (spares_keep (fun _ _ _ => rfl) fun _ => rfl) fun _ => spares_pure x

omit he in
theorem newSessionWith (modules : Nat) (tree : Tree) (settings : Settings)
    (overrides : List (String × Value)) (time : Float) :
    v.Spares (Run.newSessionWith modules tree settings overrides time) :=
  (Rel.spares (Simulation.rel_newLibrary (S := v.simulation) (w := ()))).bind fun _ =>
    (Rel.spares (Simulation.rel_newMath (S := v.simulation) (w := ()))).bind fun _ =>
      spares_addSession _

theorem loadModule (σ : Session) (specifier : String) (tree : Tree) :
    v.Spares (e.loadModule σ specifier tree) := by
  refine (newSessionWith _ _ _ _ _).bind fun place => (spares_changeModules _ _).bind fun _ =>
    (he.folderValue place "").bind fun root => (spares_changeModules _ _).bind fun _ => ?_
  split
  · exact Spares.bind (spares_keep (fun _ _ _ => rfl) fun _ => rfl) fun _ => spares_fault _
  · exact (spares_changeModules _ _).bind fun _ => spares_pure place

theorem moduleSession (σ : Session) (specifier : String) :
    v.Spares (e.moduleSession σ specifier) := by
  refine rel_look fun s _ => ?_
  show v.Spares _
  split
  · exact rel_fail _
  · split
    · exact spares_pure _
    · have hload : ∀ tree?, v.Spares (match tree? with
          | none => Run.fault (Import.notFound specifier)
          | some tree => e.loadModule σ specifier tree) := by
        intro tree?
        cases tree? with
        | none => exact spares_fault _
        | some tree => exact he.loadModule σ specifier tree
      simp only
      split
      · exact Spares.bind (spares_fault _) fun _ => hload _
      · exact hload _

theorem importValue (place : Nat) (folder : String) (arguments : List Value) :
    v.Spares (e.importValue place folder arguments) := by
  unfold Engine.importValue
  split
  · refine (rel_session place).bind fun σ σ' h => ?_
    simp only [h.moduleSession]
    split
    · exact (he.importRelative h folder _).bind fun x _ hx => hx ▸ spares_ofFaulty _
    · exact (he.moduleSession σ _).bind fun m => (he.folderValue m "").bind fun x =>
        spares_ofFaulty _
  · exact spares_fault _

/-! ### Executing -/

theorem executeFormula (place : Nat) (σ : Session) (x : Outline.Expression) :
    v.Spares (e.executeFormula place σ x) := by
  unfold Engine.executeFormula
  simp only
  split
  · exact spares_pure _
  · refine (Rel.outcome (he.answers.runFormula (w := ()) (.folder _ rfl) _ _)).bind
      fun r r' hr => ?_
    cases hr with
    | error f => exact spares_pure _
    | @ok a b hab =>
      obtain rfl := Value.eq_of_alike hab
      refine Rel.bind (he.answers.native (w := ()) a.alike_self) fun n n' hn => ?_
      obtain rfl := Native.eq_of_alike hn
      exact (spares_quiet (quiet_freeze n)).bind fun _ => spares_pure _

omit he in
theorem compiled (place : Nat) (σ : Session) (source : Source) :
    v.Spares (Engine.compiled place σ source) := by
  unfold Engine.compiled
  split
  · exact spares_pure _
  · split
    · exact spares_pure _
    · exact Spares.bind (spares_keep (fun _ _ _ => rfl) fun _ => rfl) fun _ => spares_pure _

theorem executeScript (place : Nat) (σ : Session) (x : Outline.Expression) :
    v.Spares (e.executeScript place σ x) := by
  refine (compiled place σ _).bind fun c => ?_
  cases c with
  | error ps => exact spares_pure _
  | ok p =>
    have hscripting := v.thorough.toScripting
    refine (Rel.outcome (he.answers.runScript hscripting (w := ()) (.folder _ rfl) _ _ _)).bind
      fun r r' hr => ?_
    cases hr with
    | error f => exact spares_pure _
    | @ok n n' hn =>
      obtain rfl := Native.eq_of_alike hn
      refine rel_look fun s _ => ?_
      have hvalue : n.toValue (v.store s) = n.toValue s :=
        (ExceptAlike.eq_of_alike (fun _ _ => Value.eq_of_alike)
          ((store_alike s _).value n.alike_self)).symm
      simp only [hvalue]
      split
      · exact spares_pure _
      · exact (spares_quiet (quiet_freeze n)).bind fun _ => spares_pure _

theorem execute (place : Nat) (σ : Session) (x : Outline.Expression) :
    v.Spares (e.execute place σ x) := by
  refine (spares_count place _).bind fun _ => ?_
  split
  · exact he.executeFormula place σ x
  · exact he.executeScript place σ x

/-! ### Evaluating -/

omit he in
theorem begun_finished (σ : Session) (key : String) (r : Result) : σ.begun ⊆
    Session.begun { σ with inFlight := σ.inFlight.erase key, results := (key, r) :: σ.results } := by
  intro k hk
  unfold Session.begun at hk ⊢
  by_cases heq : k = key
  · exact List.mem_append_right _ (heq ▸ List.mem_cons_self)
  · obtain hk | hk := List.mem_append.1 hk
    · exact List.mem_append_left _ ((List.mem_erase_of_ne heq).2 hk)
    · exact List.mem_append_right _ (List.mem_cons_of_mem _ hk)

omit he in
/-- What follows once an expression is in flight. -/
theorem finishing (place : Nat) (key : String) {x : Run Outcome} (hx : v.Spares x) :
    v.Spares (do
      let r ← Run.newResult (← x)
      Run.changeSession place fun s =>
        { s with inFlight := s.inFlight.erase key, results := (key, r) :: s.results }
      return some r) :=
  hx.bind fun o => (spares_newResult o).bind fun r =>
    (spares_changeSession (fun _ _ _ => rfl) (fun σ => begun_finished σ key r) place).bind
      fun _ => spares_pure _

omit he in
theorem beginning (place : Nat) (key : String) : v.Spares (Run.changeSession place fun s =>
    { s with inFlight := key :: s.inFlight }) :=
  spares_changeSession (fun _ _ _ => rfl) (fun _ => List.subset_cons_self _ _) place

omit he in
theorem executing (place : Nat) (key : String) {x : Run Outcome} (hx : v.Spares x) :
    v.Spares (Run.executing place key x) :=
  (beginning place key).bind fun _ => finishing place key hx

omit he in
/-- The execution that the revision is about begins at once. -/
theorem executing_reached {x : Run Outcome} (hx : v.Spares x) (s : Store) (hs : v.There s) :
    v.Reached ((Run.executing v.place v.key x).last s) := by
  obtain ⟨σ, hσ, -⟩ := id hs
  let s₁ := Accord.begun s v.place v.key
  have hthere : v.There s₁ := ((beginning v.place v.key).onward s hs).there hs
  have hreached : v.Reached s₁ := by
    unfold Reached Store.begun
    simp [s₁, Accord.begun, Store.changeSession, Array.getElem?_modify, hσ, Session.begun]
  exact ((finishing v.place v.key hx).onward s₁ hthere).reached hreached

theorem evaluateOf (place : Nat) (key : String) : v.Spares (e.evaluate place key) := by
  refine rel_look fun s hs => ?_
  have hpairs := hs.pairs place
  generalize s.sessions[place]? = a at hpairs ⊢
  generalize (v.store s).sessions[place]? = b at hpairs ⊢
  cases hpairs with
  | none => exact spares_pure none
  | @some σ σ' h =>
    have hx := h.outline.expression? key
    have hmem : ∀ x, σ.outline.expression? key = some x → x ∈ σ.outline.expressions ∧ x.key = key :=
      fun x hx => ⟨List.mem_of_find?_eq_some hx, by simpa using List.find?_some hx⟩
    have hother := h.expression? key
    simp only [h.results, h.inFlight]
    generalize σ.outline.expression? key = c at hx hmem hother ⊢
    generalize σ'.outline.expression? key = d at hx hother ⊢
    cases hx with
    | none => exact spares_pure none
    | @some x y hxy =>
      obtain ⟨hx, hkey⟩ := hmem x rfl
      cases σ.results.lookup key with
      | some r => exact (spares_count place _).bind fun _ => spares_pure _
      | none =>
        simp only [hxy.path_eq]
        split
        · exact (spares_count place _).bind fun _ => (spares_newResult _).map _
        · by_cases hq : place = v.place ∧ key = v.key
          · obtain ⟨rfl, rfl⟩ := hq
            have hexecute := he.execute v.place σ x
            exact (executing v.place v.key hexecute).rel_of_reached (executing_reached hexecute)
          · obtain rfl : y = x := Option.some.inj (hother hq)
            rw [h.execute e (h.text y hx fun hk => hq ⟨hk.1, hkey ▸ hk.2⟩)]
            exact executing place key (he.execute place σ y)

end Serves

/-- No engine is changed by the revision. -/
theorem serves (v : Revision) : ∀ fuel, v.Serves (Engine.ofFuel fuel)
  | 0 => ⟨Simulation.responds_zero, fun _ _ => rel_throw _⟩
  | fuel + 1 =>
    have he := serves v fuel
    have enters : v.simulation.Enters (Engine.ofFuel fuel) (Engine.ofFuel fuel) :=
      { force := by
          rintro _ a _ rfl
          exact (he.force a).alike
        evaluate := by
          rintro _ a _ key rfl
          exact (he.evaluateOf a key).imp fun r _ hr => hr ▸ optional_refl Result.alike_self r
        folderValue := by
          rintro _ a _ key rfl
          exact (he.folderValueOf a key).alike
        importValue := by
          rintro _ a _ vs ws folder rfl hv
          obtain rfl := Value.eq_of_forall hv
          exact (he.importValue a folder vs).alike }
    ⟨he.answers.next v.thorough enters rfl, he.evaluateOf⟩

/-! ## Queries -/

namespace Serves

variable {e : Engine} (he : v.Serves e)
include he

theorem evaluateAll (place : Nat) (o : Outline) : v.Spares (e.evaluateAll place o) :=
  (Spares.mapM (fun _ => (he.evaluate place _).bind fun _ => spares_pure _) _).bind fun _ =>
    spares_pure _

theorem readKey? (es : Entries) (key : String) : v.Spares (e.readKey? es key) := by
  refine Rel.imp (he.answers.readKey? (w := ()) (Slot.forall_self es) key) fun _ _ h => ?_
  exact optional_eq (fun _ _ => Value.eq_of_alike) h

theorem query (place : Nat) (q : Query) : v.Spares (e.query place q) := by
  cases q with
  | expression path => exact he.evaluateOf place _
  | all =>
    refine rel_look fun s hs => ?_
    have hpairs := hs.pairs place
    generalize s.sessions[place]? = a at hpairs ⊢
    generalize (v.store s).sessions[place]? = b at hpairs ⊢
    cases hpairs with
    | none => exact spares_pure none
    | @some σ σ' h =>
      simp only [h.evaluateAll]
      exact (he.evaluateAll place _).bind fun _ => spares_pure none
  | folder path => exact (he.folderValueOf place _).bind fun _ => spares_pure none
  | entry path key =>
    refine (he.folderValueOf place _).bind fun x => ?_
    split
    · exact (he.readKey? _ key).bind fun _ => spares_pure none
    · exact spares_pure none

end Serves

/-- The end of a run that is not changed and does not begin the execution, in the revised store. -/
theorem Spares.run {x : Run α} (h : v.Spares x) {s : Store} (hs : v.There s)
    (hn : ¬ v.Reached (x.last s)) : x (v.store s) = Run.moved v.store (x s) := by
  have hends := h.ends s hs hn
  generalize x s = r at hends ⊢
  generalize x (v.store s) = r' at hends ⊢
  match r, r', hends with
  | .ok a s', .ok b t, ⟨hab, ht⟩ => exact hab ▸ ht ▸ rfl
  | .error e s', .error e' t, ⟨he, ht⟩ => exact he ▸ ht ▸ rfl

/-- The store with the session over the second workbook is what it is with the session started
over that one. -/
theorem store_opened (s : Store) (options : Options) (time : Float) (hv : v.place = s.sessions.size) :
    v.store (s.opened v.before options time) = s.opened v.after options time := by
  unfold Store.opened Store.opening
  rw [store_eq]
  congr 1
  apply Array.ext_getElem?
  intro i
  simp only [Array.getElem?_modify, Array.getElem?_push]
  by_cases hi : i = s.sessions.size
  · simp only [hi, hv, if_true]
    rfl
  · have hne : v.place ≠ i := fun h => hi (h.symm.trans hv)
    simp only [if_neg hi, if_neg hne]

end Revision

/-- Over another workbook, the same executions have begun. -/
theorem Store.begun_over (s : Store) (place : Nat) (t : Tree) (o : Outline) (other : Nat) :
    (s.changeSession place (Session.over t o)).begun other = s.begun other := by
  unfold begun changeSession
  rw [Array.getElem?_modify]
  split
  · cases s.sessions[other]? <;> rfl
  · rfl

/-- Whatever a session is asked, an expression that it does not execute on the way could as well
have another text, in either language: everything would come out the same, answers, failures and
the executions of all sessions. -/
theorem unexecuted_expression_is_free {key : String} {tree tree' : Tree}
    (agrees : tree.AgreesBut key tree') (options : Options) (time : Float) (qs : List Query)
    (fuel : Nat) (s : Store)
    (unexecuted : key ∉ (((Engine.ofFuel fuel).consult tree options time qs).last s).begun
      s.sessions.size) :
    (Engine.ofFuel fuel).consult tree' options time qs s =
        Run.moved (·.changeSession s.sessions.size (Session.over tree' (.ofTree tree')))
          ((Engine.ofFuel fuel).consult tree options time qs s) ∧
      ∀ place, (((Engine.ofFuel fuel).consult tree' options time qs).last s).begun place =
        (((Engine.ofFuel fuel).consult tree options time qs).last s).begun place := by
  let v : Revision := ⟨s.sessions.size, key, tree, tree', agrees⟩
  let ask : Run (Nat × List (Option Result)) := do
    return (s.sessions.size, ← qs.mapM ((Engine.ofFuel fuel).query s.sessions.size))
  have hask : v.Spares ask :=
    (Revision.Spares.mapM ((Revision.serves v fuel).query _) qs).bind fun _ => Revision.spares_pure _
  have hrun (t : Tree) : (Engine.ofFuel fuel).consult t options time qs s =
      ask (s.opened t options time) :=
    Run.bind_run (Run.newSession_run t time s options)
  have hthere : v.There (s.opened tree options time) :=
    ⟨_, s.session_opened tree options time, rfl, rfl⟩
  have hmoved : (Engine.ofFuel fuel).consult tree' options time qs s =
      Run.moved v.store ((Engine.ofFuel fuel).consult tree options time qs s) := by
    rw [hrun, hrun, ← Revision.store_opened (v := v) s options time rfl]
    rw [Engine.last_consult] at unexecuted
    exact hask.run hthere unexecuted
  refine ⟨hmoved, fun place => ?_⟩
  have hlast : ((Engine.ofFuel fuel).consult tree' options time qs).last s =
      v.store (((Engine.ofFuel fuel).consult tree options time qs).last s) := by
    unfold Run.last
    rw [hmoved]
    cases (Engine.ofFuel fuel).consult tree options time qs s <;> rfl
  rw [hlast]
  exact Store.begun_over _ _ _ _ place

/-- A list with one expression in it, beside an expression `q` of some language with some text. -/
def listBeside (language : Language) (text : String) : Tree :=
  ⟨[("", some [⟨.expression, "p", 1, some .formula⟩, ⟨.expression, "q", 2, some language⟩,
      ⟨.expression, "r", 3, some .formula⟩])],
    [("p", some "[r]"), ("q", some text), ("r", some "2")], 3⟩

theorem ofTree_listBeside (language : Language) (text : String) :
    Outline.ofTree (listBeside language text) =
      ⟨[Outline.root], [⟨"p", "p", ["p"], .formula, 1, ""⟩, ⟨"q", "q", ["q"], language, 2, ""⟩,
        ⟨"r", "r", ["r"], .formula, 3, ""⟩]⟩ := by
  cases language <;> exact (Outline.ofTree_of_expressions rfl (by decide) rfl).trans rfl

theorem listBeside_agrees (language language' : Language) (text text' : String) :
    (listBeside language text).AgreesBut "q" (listBeside language' text') where
  outline := by
    rw [ofTree_listBeside, ofTree_listBeside]
    exact ⟨rfl, .cons ⟨rfl, fun _ => rfl⟩ (.cons ⟨rfl, fun h => absurd rfl h⟩
      (.cons ⟨rfl, fun _ => rfl⟩ .nil))⟩
  text := by
    rw [ofTree_listBeside]
    simp only [List.forall_mem_cons]
    exact ⟨fun _ => rfl, fun h => absurd rfl h, fun _ => rfl, fun _ h => absurd h List.not_mem_nil⟩

theorem pathKey_p : pathKey "p" = "p" :=
  pathKey_of_name (by decide) (by decide)

theorem listBeside_begun :
    (((Engine.ofFuel 12).consult (listBeside .formula "1 / 0") ⟨.standard, [], []⟩ 0
      [.expression "p"]).last .empty).begun 0 = ["p", "r"] := by
  rw [Engine.last_consult]
  unfold Engine.query Store.opened Store.opening Session.start
  rw [ofTree_listBeside]
  simp only [pathKey_p, List.mapM_cons, List.mapM_nil]
  decide +kernel

/-- The list does not read the expression beside it, which may as well be a script that throws. -/
theorem beside_is_free :
    (listBeside .formula "1 / 0").AgreesBut "q" (listBeside .script "throw 1") ∧
    "q" ∉ (((Engine.ofFuel 12).consult (listBeside .formula "1 / 0") ⟨.standard, [], []⟩ 0
      [.expression "p"]).last .empty).begun 0 ∧
    (Engine.ofFuel 12).consult (listBeside .script "throw 1") ⟨.standard, [], []⟩ 0
        [.expression "p"] .empty =
      Run.moved (·.changeSession 0 (Session.over (listBeside .script "throw 1")
          (.ofTree (listBeside .script "throw 1"))))
        ((Engine.ofFuel 12).consult (listBeside .formula "1 / 0") ⟨.standard, [], []⟩ 0
          [.expression "p"] .empty) := by
  have unexecuted : "q" ∉ (((Engine.ofFuel 12).consult (listBeside .formula "1 / 0")
      ⟨.standard, [], []⟩ 0 [.expression "p"]).last .empty).begun 0 := by
    rw [listBeside_begun]
    decide
  exact ⟨listBeside_agrees .., unexecuted,
    (unexecuted_expression_is_free (listBeside_agrees ..) _ _ _ _ _ unexecuted).1⟩

end Workbook
