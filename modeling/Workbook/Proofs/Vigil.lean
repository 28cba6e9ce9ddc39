/-
A run that is watched, and the same run left alone.

`Engine.guarded` answers what the engine itself answers, but remembers which requests are
being answered, each with the store it was made in, and lets a guard look at the store
before and after every answer, however deep.  A guard may stop the run or change the store;
that it makes no difference says that it never met what it would not let pass.

A `Vigil` is an invariant of the store under which the two engines go together.  Most of
what runs do neither changes a variable nor counts a call; `Store.Inert` says so, and an
invariant need only survive that.  What scripts do to variables, calls and failures is
settled where a vigil is used.
-/
import Workbook.Proofs.Accord

open List (Forall₂)

namespace Workbook

/-! ## Contexts of calls -/

/-- What counts calls: an evaluation of a formula or an execution of a script. -/
inductive Context
  | evaluation (place : Nat)
  | execution (place : Nat)
  deriving DecidableEq, Repr

namespace Store

/-- How many calls of a context are active, and how many may be. -/
def calls? (s : Store) : Context → Option (Nat × Nat)
  | .evaluation place => (s.evaluations[place]?).map fun e => (e.depth, e.maxDepth)
  | .execution place => (s.executions[place]?).map fun e => (e.depth, e.maxDepth)

/-- Contexts have as many active calls as before, within the same limits; new ones have none. -/
structure CallsKept (s s' : Store) : Prop where
  kept : ∀ (c : Context) (x : Nat × Nat), s.calls? c = some x → s'.calls? c = some x
  idle : ∀ (c : Context) (x : Nat × Nat), s.calls? c = none → s'.calls? c = some x → x.1 = 0

/-- Blocks keep their variables and contexts their calls. -/
structure Inert (s s' : Store) : Prop extends CallsKept s s' where
  blocks : ∀ (place : Nat) (b : Block), s.blocks[place]? = some b → s'.blocks[place]? = some b

theorem inert_of_calls {s s' : Store}
    (blocks : ∀ (place : Nat) (b : Block), s.blocks[place]? = some b → s'.blocks[place]? = some b)
    (calls : ∀ c, s'.calls? c = s.calls? c) : s.Inert s' where
  blocks := blocks
  kept c x h := (calls c).trans h
  idle c x h h' := by
    rw [calls c, h] at h'
    cases h'

/-- Changes of everything else are inert. -/
theorem inert_of_eq {s s' : Store} (blocks : s'.blocks = s.blocks)
    (evaluations : s'.evaluations = s.evaluations) (executions : s'.executions = s.executions) :
    s.Inert s' :=
  inert_of_calls (fun place b h => blocks ▸ h) fun c => by
    cases c with
    | evaluation place => rw [calls?, calls?, evaluations]
    | execution place => rw [calls?, calls?, executions]

theorem Inert.refl (s : Store) : s.Inert s :=
  inert_of_eq rfl rfl rfl

theorem Inert.trans {s t u : Store} (h : s.Inert t) (h' : t.Inert u) : s.Inert u where
  blocks place b hb := h'.blocks place b (h.blocks place b hb)
  kept c x hc := h'.kept c x (h.kept c x hc)
  idle c x hs hu := by
    cases ht : t.calls? c with
    | none => exact h'.idle c x ht hu
    | some y =>
      rw [h'.kept c y ht] at hu
      exact Option.some.inj hu ▸ h.idle c y hs ht

theorem inert_freeze (s : Store) (v : Native) : s.Inert (s.freeze v) := by
  refine freezeAll_of_freezeOne Inert.refl Inert.trans (fun s v => ?_) _ s [v]
  obtain h | ⟨place, c, -, hc, hf, h⟩ | ⟨place, c, -, hc, hf, h⟩ := s.freezeOne_shape v <;> rw [h]
  · exact .refl s
  · exact inert_of_eq rfl rfl rfl
  · exact inert_of_eq rfl rfl rfl

theorem inert_newBlock (s : Store) (parent : Option Nat) :
    s.Inert { s with blocks := s.blocks.push ⟨[], parent⟩ } :=
  inert_of_calls (fun _ _ h => push_getElem? h) fun c => by cases c <;> rfl

/-- A new context has no active calls. -/
theorem inert_newEvaluation (s : Store) (scope : Scope Value) (maxDepth : Nat) :
    s.Inert { s with evaluations := s.evaluations.push ⟨scope, 0, maxDepth⟩ } where
  blocks _ _ h := h
  kept c x h := by
    cases c with
    | execution place => exact h
    | evaluation place =>
      obtain ⟨e, he, rfl⟩ := Option.map_eq_some_iff.1 h
      exact Option.map_eq_some_iff.2 ⟨e, push_getElem? he, rfl⟩
  idle c x h h' := by
    cases c with
    | execution place => exact absurd (h.symm.trans h') nofun
    | evaluation place =>
      obtain ⟨e, he, rfl⟩ := Option.map_eq_some_iff.1 h'
      have hnone : s.evaluations[place]? = none := Option.map_eq_none_iff.1 h
      rw [Array.getElem?_push] at he
      split at he
      · cases he
        rfl
      · rw [hnone] at he
        cases he

theorem inert_newExecution (s : Store) (scope : Scope Native) (maxDepth : Nat) :
    s.Inert { s with executions := s.executions.push ⟨scope, [], 0, maxDepth⟩ } where
  blocks _ _ h := h
  kept c x h := by
    cases c with
    | evaluation place => exact h
    | execution place =>
      obtain ⟨e, he, rfl⟩ := Option.map_eq_some_iff.1 h
      exact Option.map_eq_some_iff.2 ⟨e, push_getElem? he, rfl⟩
  idle c x h h' := by
    cases c with
    | evaluation place => exact absurd (h.symm.trans h') nofun
    | execution place =>
      obtain ⟨e, he, rfl⟩ := Option.map_eq_some_iff.1 h'
      have hnone : s.executions[place]? = none := Option.map_eq_none_iff.1 h
      rw [Array.getElem?_push] at he
      split at he
      · cases he
        rfl
      · rw [hnone] at he
        cases he

theorem inert_remember (s : Store) (run : Nat) (name : String) (v : Native) :
    s.Inert { s with executions := s.executions.modify run fun e =>
      { e with known := (name, v) :: e.known } } :=
  inert_of_calls (fun _ _ h => h) fun c => by
    cases c with
    | evaluation place => rfl
    | execution place =>
      simp only [calls?, Array.getElem?_modify]
      split
      · cases s.executions[place]? <;> rfl
      · rfl

end Store

/-! ## Contexts at their limits -/

namespace Store

/-- Counts calls of a context. -/
def count (s : Store) (f : Nat → Nat) : Context → Store
  | .evaluation place => s.countCalls place f
  | .execution place => s.countScriptCalls place f

/-- Whether a context has as many active calls as it may. -/
def full (s : Store) (c : Context) : Bool :=
  (s.calls? c).any fun x => x.2 ≤ x.1

variable (s : Store)

theorem full_evaluation (place : Nat) : s.full (.evaluation place) = s.busy place := by
  simp only [full, calls?, Option.any_map]
  rfl

theorem full_execution (place : Nat) : s.full (.execution place) = s.scriptBusy place := by
  simp only [full, calls?, Option.any_map]
  rfl

theorem calls?_count (f : Nat → Nat) (c : Context) :
    (s.count f c).calls? c = (s.calls? c).map fun x => (f x.1, x.2) := by
  cases c with
  | evaluation place =>
    simp only [count, countCalls, calls?, Array.getElem?_modify, if_true, Option.map_map]
    rfl
  | execution place =>
    simp only [count, countScriptCalls, calls?, Array.getElem?_modify, if_true, Option.map_map]
    rfl

theorem calls?_count_of_ne (f : Nat → Nat) {c c' : Context} (h : c' ≠ c) :
    (s.count f c).calls? c' = s.calls? c' := by
  cases c with
  | evaluation place =>
    cases c' with
    | execution _ => rfl
    | evaluation place' =>
      have hne : place ≠ place' := fun heq => h (congrArg Context.evaluation heq.symm)
      simp only [count, countCalls, calls?, Array.getElem?_modify, if_neg hne]
  | execution place =>
    cases c' with
    | evaluation _ => rfl
    | execution place' =>
      have hne : place ≠ place' := fun heq => h (congrArg Context.execution heq.symm)
      simp only [count, countScriptCalls, calls?, Array.getElem?_modify, if_neg hne]

end Store

/-- Runs a call of a context, unless too many are active. -/
def Run.counted {α : Type} (c : Context) (x : Run α) : Run α := fun s =>
  if s.full c then Run.fail .tooManyCalls s
  else Run.ensuring x (modify (·.count (· - 1) c)) (s.count (· + 1) c)

namespace Engine

theorem callWithin_eq (evaluation : Nat) (x : Run Value) :
    callWithin evaluation x = Run.counted (.evaluation evaluation) x := by
  funext s
  unfold Run.counted
  rw [s.full_evaluation]
  show ((if s.busy evaluation then _ else _ : Run Value) s) = _
  cases s.busy evaluation <;> rfl

theorem callDuring_eq (run : Nat) (x : Run Native) :
    callDuring run x = Run.counted (.execution run) x := by
  funext s
  unfold Run.counted
  rw [s.full_execution]
  show ((if s.scriptBusy run then _ else _ : Run Native) s) = _
  cases s.scriptBusy run <;> rfl

end Engine

/-! ## Inert runs -/

/-- An end of a run that has changed nothing but inertly.  A failure knows nothing of where it was. -/
inductive Store.InertEnd (s : Store) {α : Type} : EStateM.Result Stop Store α → Prop
  | ok {a : α} {s' : Store} (h : s.Inert s') : InertEnd s (.ok a s')
  | failed {c : Cause} {s' : Store} (h : s.Inert s') : InertEnd s (.error (.failed (.ofCause c)) s')
  | exhausted {s' : Store} (h : s.Inert s') : InertEnd s (.error .exhausted s')

theorem Store.InertEnd.earlier {s t : Store} {α : Type} {r : EStateM.Result Stop Store α}
    (hs : s.Inert t) : t.InertEnd r → s.InertEnd r
  | .ok h => .ok (hs.trans h)
  | .failed h => .failed (hs.trans h)
  | .exhausted h => .exhausted (hs.trans h)

/-- A run that ends inertly wherever it starts. -/
def Run.Inert {α : Type} (x : Run α) : Prop :=
  ∀ s : Store, s.InertEnd (x s)

namespace Run

variable {α β : Type}

theorem inert_modifyGet {f : Store → α × Store} (h : ∀ s : Store, s.Inert (f s).2) :
    Inert (modifyGet f : Run α) :=
  fun s => .ok (h s)

theorem inert_pure (a : α) : Inert (pure a : Run α) :=
  fun s => .ok (.refl s)

theorem Inert.bind {x : Run α} {k : α → Run β} (hx : x.Inert) (hk : ∀ a, (k a).Inert) :
    (x >>= k).Inert := by
  intro s
  have h := hx s
  generalize hr : x s = r at h
  cases h with
  | ok h =>
    rw [bind_run hr]
    exact (hk _ _).earlier h
  | failed h =>
    rw [bind_error hr]
    exact .failed h
  | exhausted h =>
    rw [bind_error hr]
    exact .exhausted h

theorem inert_rewriteItems (place : Nat) (f : Store → Except Cause (Array Native → Array Native)) :
    (rewriteItems place f).Inert := by
  intro s
  rw [Coupling.rewriteItems_run]
  cases s.arrayFrozen place with
  | true => exact .failed (.refl s)
  | false =>
    simp only [Bool.false_eq_true, if_false]
    cases f (s.modifyArray place .counted) with
    | ok g => exact .ok (Store.inert_of_eq rfl rfl rfl)
    | error c => exact .failed (Store.inert_of_eq rfl rfl rfl)

theorem inert_modifyFields (place : Nat) (f : Fields → Fields) : (modifyFields place f).Inert := by
  intro s
  rw [Coupling.modifyFields_run]
  cases s.objectFrozen place with
  | true => exact .failed (.refl s)
  | false => exact .ok (Store.inert_of_eq rfl rfl rfl)

theorem inert_freeze (v : Native) : (freeze v).Inert :=
  fun s => .ok (s.inert_freeze v)

theorem inert_changeSession (place : Nat) (f : Session → Session) : (changeSession place f).Inert :=
  fun _ => .ok (Store.inert_of_eq rfl rfl rfl)

theorem inert_changeModules (place : Nat) (f : Modules → Modules) : (changeModules place f).Inert :=
  fun _ => .ok (Store.inert_of_eq rfl rfl rfl)

theorem inert_compiled (place : Nat) (σ : Session) (source : Source) :
    (Engine.compiled place σ source).Inert := by
  unfold Engine.compiled
  split
  · exact inert_pure _
  · split
    · exact inert_pure _
    · exact Inert.bind (inert_changeSession place _) fun _ => inert_pure _

end Run

/-! ## Vigils -/

theorem Failure.fresh_refl (c : Cause) : Failure.ofCause c = .ofCause c := rfl

theorem Failure.cause_congr {f g : Failure} (h : f = g) : f.cause = g.cause :=
  congrArg Failure.cause h

/-- What is kept of the store while a run goes on, and how far a watched run may differ from it. -/
structure Vigil where
  World : Type
  le : World → World → Prop
  le_refl : ∀ w, le w w
  le_trans : ∀ {u v w}, le u v → le v w → le u w
  Inv : World → Store → Prop
  inert : ∀ {w s s'}, Inv w s → s.Inert s' → Inv w s'
  /-- How a failure of the watched run differs from that of the run itself. -/
  Fails : Failure → Failure → Prop
  fails_fresh : ∀ c, Fails (.ofCause c) (.ofCause c)
  cause : ∀ {f g}, Fails f g → f.cause = g.cause
  /-- Whether the watched run may be broken off. -/
  cut : Prop

namespace Vigil

variable {V : Vigil} {w : V.World} {α β : Type}

/-- Ends of a watched run and of the run itself that go together. -/
inductive Ends (V : Vigil) (w : V.World) {α : Type} (R : V.World → α → α → Prop) :
    EStateM.Result Stop Store α → EStateM.Result Stop Store α → Prop
  | ok {w' : V.World} {a b : α} {s : Store} (le : V.le w w') (inv : V.Inv w' s) (h : R w' a b) :
      Ends V w R (.ok a s) (.ok b s)
  | failed {w' : V.World} {f g : Failure} {s : Store} (le : V.le w w') (inv : V.Inv w' s)
      (h : V.Fails f g) : Ends V w R (.error (.failed f) s) (.error (.failed g) s)
  | exhausted {w' : V.World} {s : Store} (le : V.le w w') (inv : V.Inv w' s) :
      Ends V w R (.error .exhausted s) (.error .exhausted s)
  | cut {s : Store} {r : EStateM.Result Stop Store α} (h : V.cut) :
      Ends V w R (.error .exhausted s) r

/-- A watched run and the run itself go together wherever they start. -/
structure Rel (V : Vigil) (w : V.World) {α : Type} (x y : Run α)
    (R : V.World → α → α → Prop) : Prop where
  ends : ∀ s, V.Inv w s → V.Ends w R (x s) (y s)

theorem Ends.earlier {R : V.World → α → α → Prop} {w' : V.World} (hw : V.le w w')
    {r r' : EStateM.Result Stop Store α} : V.Ends w' R r r' → V.Ends w R r r'
  | .ok le inv h => .ok (V.le_trans hw le) inv h
  | .failed le inv h => .failed (V.le_trans hw le) inv h
  | .exhausted le inv => .exhausted (V.le_trans hw le) inv
  | .cut h => .cut h

section

variable {R : V.World → α → α → Prop} {T : V.World → β → β → Prop} {x y : Run α}

theorem rel_pure {a b : α} (h : R w a b) : V.Rel w (pure a) (pure b) R :=
  ⟨fun _ hi => .ok (V.le_refl w) hi h⟩

theorem rel_fail (c : Cause) : V.Rel w (Run.fail c) (Run.fail c) R :=
  ⟨fun _ hi => .failed (V.le_refl w) hi (V.fails_fresh c)⟩

theorem rel_exhausted : V.Rel w Run.exhausted Run.exhausted R :=
  ⟨fun _ hi => .exhausted (V.le_refl w) hi⟩

theorem rel_bind {k l : α → Run β} (h : V.Rel w x y R)
    (hk : ∀ w', V.le w w' → ∀ a b, R w' a b → V.Rel w' (k a) (l b) T) :
    V.Rel w (x >>= k) (y >>= l) T := by
  refine ⟨fun s hi => ?_⟩
  have hx := h.ends s hi
  show V.Ends w T (EStateM.bind x k s) (EStateM.bind y l s)
  unfold EStateM.bind
  generalize x s = r at hx ⊢
  generalize y s = r' at hx ⊢
  cases hx with
  | ok le inv h => exact ((hk _ le _ _ h).ends _ inv).earlier le
  | failed le inv h => exact .failed le inv h
  | exhausted le inv => exact .exhausted le inv
  | cut h => exact .cut h

theorem rel_get {k l : Store → Run α}
    (h : ∀ s, V.Inv w s → V.Rel w (k s) (l s) R) : V.Rel w (get >>= k) (get >>= l) R :=
  ⟨fun s hi => (h s hi).ends s hi⟩

theorem Ends.mapFailure {f g : Failure → Failure} {s t : Store}
    (hfg : ∀ e e', V.Fails e e' → V.Fails (f e) (g e')) (h : V.Ends w R (x s) (y t)) :
    V.Ends w R (Run.mapFailure f x s) (Run.mapFailure g y t) := by
  unfold Run.mapFailure
  generalize x s = r at h ⊢
  generalize y t = r' at h ⊢
  cases h with
  | ok le inv h => exact .ok le inv h
  | failed le inv h => exact .failed le inv (hfg _ _ h)
  | exhausted le inv => exact .exhausted le inv
  | @cut s' r h =>
    simp only
    exact .cut h

/-- The caller sees the same of both failures. -/
theorem Ends.behindCall {s t : Store} (h : V.Ends w R (x s) (y t)) :
    V.Ends w R (Run.behindCall x s) (Run.behindCall y t) :=
  h.mapFailure fun e e' he => by
    simp only [V.cause he]
    exact V.fails_fresh _

theorem rel_mapFailure {f g : Failure → Failure}
    (hfg : ∀ e e', V.Fails e e' → V.Fails (f e) (g e')) (h : V.Rel w x y R) :
    V.Rel w (Run.mapFailure f x) (Run.mapFailure g y) R :=
  ⟨fun s hi => (h.ends s hi).mapFailure hfg⟩

theorem rel_behindCall (h : V.Rel w x y R) : V.Rel w (Run.behindCall x) (Run.behindCall y) R :=
  ⟨fun s hi => (h.ends s hi).behindCall⟩

/-- Failures are caught in both runs if they are the same. -/
theorem rel_outcome (heq : ∀ e e', V.Fails e e' → e = e') (h : V.Rel w x y R) :
    V.Rel w (Run.outcome x) (Run.outcome y) fun w => ExceptAlike (R w) := by
  refine ⟨fun s hi => ?_⟩
  have hx := h.ends s hi
  unfold Run.outcome
  generalize x s = r at hx ⊢
  generalize y s = r' at hx ⊢
  cases hx with
  | ok le inv h => exact .ok le inv (.ok h)
  | failed le inv h =>
    obtain rfl := heq _ _ h
    exact .ok le inv (.error _)
  | exhausted le inv => exact .exhausted le inv
  | cut h => exact .cut h

/-- An inert run goes with itself. -/
theorem rel_inert (h : x.Inert) (hR : ∀ a, R w a a) : V.Rel w x x R := by
  refine ⟨fun s hi => ?_⟩
  have hs := h s
  generalize x s = r at hs ⊢
  cases hs with
  | ok h => exact .ok (V.le_refl w) (V.inert hi h) (hR _)
  | failed h => exact .failed (V.le_refl w) (V.inert hi h) (V.fails_fresh _)
  | exhausted h => exact .exhausted (V.le_refl w) (V.inert hi h)

end

/-- The simulation of a vigil. -/
def simulation (V : Vigil) : SessionSimulation where
  World := V.World
  le := V.le
  le_refl := V.le_refl
  le_trans := V.le_trans
  pairing _ := .same
  within _ := .refl _
  Rel w _ x y R := V.Rel w x y R
  pure := rel_pure
  bind := rel_bind
  get h := rel_get fun s _ => h s s s.alike_self
  fail := rel_fail
  exhausted := rel_exhausted
  Fuel := Eq
  fuel_succ := Nat.succ.inj
  fuel_left h := nomatch h
  fuel_right h := nomatch h
  behindCall := rel_behindCall
  freshId := rel_inert (Run.inert_modifyGet fun _ => Store.inert_of_eq rfl rfl rfl) fun _ => rfl
  newArray h := by
    obtain rfl := Array.toList_inj.1 (Native.eq_of_forall h)
    exact rel_inert (Run.inert_modifyGet fun _ => Store.inert_of_eq rfl rfl rfl) Native.alike_self
  newObject h := by
    obtain rfl := Keyed.eq_of_forall (fun _ _ => Native.eq_of_alike) h
    exact rel_inert (Run.inert_modifyGet fun _ => Store.inert_of_eq rfl rfl rfl) Native.alike_self
  rewriteItems := by
    rintro _ a _ f g rfl h
    obtain rfl : f = g := funext fun s => ExceptAlike.eq_of_alike (fun _ _ hfg => funext fun xs =>
      Array.toList_inj.1 (Native.eq_of_forall (hfg xs xs (Native.forall_self _))))
      (h s s s.alike_self)
    exact rel_inert (Run.inert_rewriteItems a f) fun _ => trivial
  modifyFields := by
    rintro _ a _ f g rfl h
    obtain rfl : f = g := funext fun fs =>
      Keyed.eq_of_forall (fun _ _ => Native.eq_of_alike) (h fs fs (Store.fields_alike_self fs))
    exact rel_inert (Run.inert_modifyFields a f) fun _ => trivial
  freeze h := by
    obtain rfl := Native.eq_of_alike h
    exact rel_inert (Run.inert_freeze _) fun _ => trivial
  newBlock h := by
    obtain rfl := optional_eq (fun _ _ h => h) h
    exact rel_inert (Run.inert_modifyGet fun s => s.inert_newBlock _) fun _ => rfl
  remember := by
    rintro _ a _ v _ name rfl h
    obtain rfl := Native.eq_of_alike h
    exact rel_inert (Run.inert_modifyGet fun s => s.inert_remember a name v) fun _ => trivial
  log _ _ := rel_inert (Run.inert_modifyGet fun _ => Store.inert_of_eq rfl rfl rfl) fun _ => trivial
  newEvaluation maxDepth h := by
    obtain rfl := Scope.eq_of_alike (fun _ _ => Value.eq_of_alike) h
    exact rel_inert (Run.inert_modifyGet fun s => s.inert_newEvaluation _ maxDepth) fun _ => rfl
  newExecution maxDepth h := by
    obtain rfl := Scope.eq_of_alike (fun _ _ => Native.eq_of_alike) h
    exact rel_inert (Run.inert_modifyGet fun s => s.inert_newExecution _ maxDepth) fun _ => rfl
  session? := by
    rintro _ a _ rfl
    exact rel_get fun s _ => rel_pure (optional_refl Session.alike_self _)
  ties _ := .same
  ties_within _ := .refl _
  born _ a b := a = b
  born_mono _ h := h
  born_sessions h := h
  settings := by
    rintro w o _ rfl
    exact ⟨rfl, rfl⟩
  empty := by
    rintro w o _ rfl
    rfl
  unused := rfl
  count f h := congrArg f h
  look h := rel_get fun s _ => h s s s.tied_self
  newThunk h := by
    obtain rfl := Work.eq_of_alike h
    exact ⟨fun _ hi => .ok (V.le_refl _) (V.inert hi (Store.inert_of_eq rfl rfl rfl)) (.lazy rfl)⟩
  settle := by
    rintro _ a _ v _ rfl h
    obtain rfl := Value.eq_of_alike h
    exact rel_inert (Run.inert_modifyGet fun _ => Store.inert_of_eq rfl rfl rfl) fun _ => trivial
  changeSession := by
    rintro _ a _ f g rfl h - -
    obtain rfl : f = g := funext fun σ => Session.eq_of_tied (h σ σ σ.tied_self)
    exact rel_inert (Run.inert_changeSession a f) fun _ => trivial
  addSession h _ _ := by
    obtain rfl := Session.eq_of_tied h
    exact rel_inert (Run.inert_modifyGet fun _ => Store.inert_of_eq rfl rfl rfl) fun _ => rfl
  release := by
    rintro _ a _ rfl
    exact rel_inert (Run.inert_changeSession a _) fun _ => trivial
  keepModule := by
    rintro _ a _ c _ specifier rfl rfl
    exact rel_inert (Run.inert_changeModules a _) fun _ => trivial
  compiled := by
    rintro _ a _ σ σ' source rfl h
    obtain rfl := Session.eq_of_tied h
    exact rel_inert (Run.inert_compiled a σ source) fun _ => rfl

theorem catches (heq : ∀ e e', V.Fails e e' → e = e') : V.simulation.Catches :=
  rel_outcome heq

theorem executes : V.simulation.Executes := by
  rintro w a _ x y key rfl - hxy
  have hchange (w : V.World) (f : Session → Session) :
      V.Rel w (Run.changeSession a f) (Run.changeSession a f) fun _ _ _ => True :=
    rel_inert (Run.inert_changeSession a f) fun _ => trivial
  refine rel_bind (hchange w _) fun w₁ _ _ _ _ => ?_
  refine rel_bind (hxy w₁ (.refl _) (.refl _)) fun w₂ _ o o' ho => ?_
  refine rel_bind (SessionSimulation.rel_newResult (S := V.simulation) ho) fun w₃ _ r r' hr => ?_
  obtain rfl := Result.eq_of_alike hr
  exact rel_bind (hchange w₃ _) fun _ _ _ _ _ => rel_pure (.some hr)

theorem loads : V.simulation.Loads := by
  rintro w a _ x y specifier rfl - hxy
  have hchange (w : V.World) (f : Modules → Modules) :
      V.Rel w (Run.changeModules a f) (Run.changeModules a f) fun _ _ _ => True :=
    rel_inert (Run.inert_changeModules a f) fun _ => trivial
  refine rel_bind (hchange w _) fun w₁ _ _ _ _ => ?_
  refine rel_bind (hxy w₁ (.refl _)) fun w₂ _ v v' hv => ?_
  exact rel_bind (hchange w₂ _) fun _ _ _ _ _ => rel_pure hv

/-! ## Engines -/

/-- The values of two runs that go together are the same. -/
theorem Rel.imp {R R' : V.World → α → α → Prop} {x y : Run α} (h : V.Rel w x y R)
    (hR : ∀ w a b, R w a b → R' w a b) : V.Rel w x y R' :=
  Simulation.Rel.imp (S := V.simulation.toSimulation) h fun w' _ => hR w'

/-- Two engines that go together on every request that they may be asked. -/
def Agree (V : Vigil) (may : ∀ {α : Type}, V.World → Request α → Prop) (e₁ e₂ : Engine) : Prop :=
  ∀ (w : V.World) {α : Type} (r : Request α), may w r → V.Rel w (e₁.ask r) (e₂.ask r) fun _ => Eq

/-- What it takes for two engines to answer a request alike that make do with engines that do so:
what scripts do with variables, calls and failures, and running them in sessions, is to be shown
for itself. -/
def Handles (V : Vigil) (w : V.World) (e₁ e₂ : Engine) (fuel : Nat) :
    {α : Type} → Request α → Prop
  | _, .callTyped f vs => V.Rel w (e₁.callTypedCode f.code vs) (e₂.callTypedCode f.code vs)
      fun _ => Value.Alike .same
  | _, .invoke run block f name vs => V.Rel w (e₁.invoke run block f name vs)
      (e₂.invoke run block f name vs) fun _ => Native.Alike .same
  | _, .statement run block st => V.Rel w (e₁.statement fuel run block st)
      (e₂.statement fuel run block st) fun _ => Simulation.FlowAlike .same
  | _, .expression run block e => V.Rel w (e₁.expression run block e)
      (e₂.expression run block e) fun _ => Native.Alike .same
  | _, .evaluate place key => V.Rel w (e₁.evaluate place key) (e₂.evaluate place key)
      fun _ => Option.Rel (Result.Alike .same)
  | _, _ => True

theorem agree_answer {e₁ e₂ : Engine} (he : V.simulation.Reaches e₁ e₂) (fuel : Nat) {α : Type}
    (r : Request α) (h : V.Handles w e₁ e₂ fuel r) :
    V.Rel w (Engine.answer e₁ fuel r) (Engine.answer e₂ fuel r) fun _ => Eq := by
  have value {x y : Run Value} (hxy : V.Rel w x y fun _ => Value.Alike .same) :
      V.Rel w x y fun _ => Eq := hxy.imp fun _ _ _ => Value.eq_of_alike
  have native {x y : Run Native} (hxy : V.Rel w x y fun _ => Native.Alike .same) :
      V.Rel w x y fun _ => Eq := hxy.imp fun _ _ _ => Native.eq_of_alike
  have hm (m : Motion) : Motion.Alike .same m m := m.alike_self
  cases r with
  | force t => exact value (he.forceOf rfl)
  | text v nested => exact he.answers.textOf v.alike_self nested
  | json v => exact he.answers.jsonOf v.alike_self
  | native v => exact native (he.answers.nativeOf v.alike_self)
  | equal a b => exact he.answers.equalOf a.alike_self b.alike_self
  | move m v => exact value (he.answers.moveOf (hm m) v.alike_self)
  | formula ev ls e => exact value (he.answers.formulaOf rfl (Value.locals_self ls) e)
  | callTyped f vs => exact value (rel_behindCall h)
  | callNative f vs =>
    cases f with
    | mk id code =>
      have hcode := he.answers.callNativeCode (w := w) code.alike_self (Native.forall_self vs)
      exact native (rel_behindCall hcode)
  | invoke run block f name vs => exact native h
  | statement run block st => exact h.imp fun _ _ _ => Simulation.flow_eq
  | expression run block e => exact native h
  | evaluate place key => exact Rel.imp h fun _ _ _ => optional_eq fun _ _ => Result.eq_of_alike
  | folderValue place key => exact value (he.folderValueOf rfl key)

/-- Engines that go together on all requests but statements reach the same in sessions. -/
theorem Agree.reaches {may : ∀ {α : Type}, V.World → Request α → Prop} {e₁ e₂ : Engine}
    (h : V.Agree may e₁ e₂)
    (hmay : ∀ (w : V.World) {α : Type} (r : Request α), r.isStatement = false → may w r) :
    V.simulation.Reaches e₁ e₂ where
  answers := Simulation.answers_of_agree (S := V.simulation.toSimulation) (fun _ => rfl)
    fun w _ r hr => h w r (hmay w r hr)
  evaluate := by
    rintro w a _ key rfl
    exact (h w (.evaluate a key) (hmay w _ rfl)).imp fun _ r _ hr =>
      hr ▸ optional_refl Result.alike_self r

end Vigil

/-! ## Guarded engines -/

/-- A request that is being answered, and the store that it was made in. -/
structure Activity where
  {α : Type}
  request : Request α
  store : Store

/-- The engine with a guard that is shown the requests that are being answered, the innermost
first, before and after each answer.  Those in `outer` are being answered already. -/
def Engine.guarded (guard : List Activity → Run Unit) : Nat → List Activity → Engine
  | 0, _ => ⟨fun _ => Run.exhausted⟩
  | fuel + 1, outer => ⟨fun r => do
      let active := ⟨r, ← get⟩ :: outer
      guard active
      Run.ensuring (answer (guarded guard fuel active) fuel r) (guard active)⟩

namespace Vigil

variable {V : Vigil} {w : V.World} {α : Type} {R : V.World → α → α → Prop}

/-- A guard at the end makes no difference if it passes every store that may be met there. -/
theorem Ends.ensuring {g : Run Unit} {x : Run α} {s : Store} {r : EStateM.Result Stop Store α}
    (hg : ∀ w' t, V.le w w' → V.Inv w' t → g t = .ok () t)
    (hcut : V.cut → ∀ t, g t = .ok () t ∨ ∃ t', g t = .error .exhausted t')
    (h : V.Ends w R (x s) r) : V.Ends w R (Run.ensuring x g s) r := by
  unfold Run.ensuring
  generalize x s = q at h ⊢
  cases h with
  | ok le inv h =>
    simp only
    rw [Run.bind_run (hg _ _ le inv)]
    exact .ok le inv h
  | failed le inv h =>
    simp only
    rw [Run.bind_run (hg _ _ le inv)]
    exact .failed le inv h
  | exhausted le inv =>
    simp only
    rw [Run.bind_run (hg _ _ le inv)]
    exact .exhausted le inv
  | @cut t _ h =>
    simp only
    obtain ht | ⟨t', ht⟩ := hcut h t
    · rw [Run.bind_run ht]
      exact .cut h
    · rw [Run.bind_error ht]
      exact .cut h

/-- An answer goes on as it does without the guard, if the guard passes the stores before and
after it. -/
theorem ends_guarded {guard : List Activity → Run Unit} {fuel : Nat} {outer : List Activity}
    {r : Request α} {s : Store} {q : EStateM.Result Stop Store α} (hi : V.Inv w s)
    (hg : ∀ w' t, V.le w w' → V.Inv w' t → guard (⟨r, s⟩ :: outer) t = .ok () t)
    (hcut : V.cut → ∀ t, guard (⟨r, s⟩ :: outer) t = .ok () t ∨
      ∃ t', guard (⟨r, s⟩ :: outer) t = .error .exhausted t')
    (h : V.Ends w R (Engine.answer (Engine.guarded guard fuel (⟨r, s⟩ :: outer)) fuel r s) q) :
    V.Ends w R ((Engine.guarded guard (fuel + 1) outer).ask r s) q := by
  have hstart : (Engine.guarded guard (fuel + 1) outer).ask r s =
      Run.ensuring (Engine.answer (Engine.guarded guard fuel (⟨r, s⟩ :: outer)) fuel r)
        (guard (⟨r, s⟩ :: outer)) s := by
    show (do
      let s ← get
      guard (⟨r, s⟩ :: outer)
      Run.ensuring (Engine.answer (Engine.guarded guard fuel (⟨r, s⟩ :: outer)) fuel r)
        (guard (⟨r, s⟩ :: outer)) : Run α) s = _
    rw [Run.get_bind, Run.bind_run (hg w s (V.le_refl w) hi)]
  rw [hstart]
  exact h.ensuring hg hcut

/-- The ends of two runs that go together are the same, unless the first one is cut off or failures
differ. -/
theorem Ends.eq_or_cut (heq : ∀ e e', V.Fails e e' → e = e') {r r' : EStateM.Result Stop Store α}
    (h : V.Ends w (fun _ => Eq) r r') : r = r' ∨ V.cut ∧ ∃ t, r = .error .exhausted t := by
  cases h with
  | ok _ _ h => exact .inl (by rw [h])
  | failed _ _ h => exact .inl (by rw [heq _ _ h])
  | exhausted => exact .inl rfl
  | cut h => exact .inr ⟨h, _, rfl⟩

theorem Ends.eq (heq : ∀ e e', V.Fails e e' → e = e') (hcut : ¬ V.cut)
    {r r' : EStateM.Result Stop Store α} (h : V.Ends w (fun _ => Eq) r r') : r = r' :=
  (h.eq_or_cut heq).resolve_right fun hc => hcut hc.1

/-- Less may be said about the values. -/
theorem Ends.imp {R' : V.World → α → α → Prop} {r r' : EStateM.Result Stop Store α}
    (hR : ∀ w a b, R w a b → R' w a b) : V.Ends w R r r' → V.Ends w R' r r'
  | .ok le inv h => .ok le inv (hR _ _ _ h)
  | .failed le inv h => .failed le inv h
  | .exhausted le inv => .exhausted le inv
  | .cut h => .cut h

/-- Where a run that is watched comes to, the invariant holds, unless it is cut off. -/
theorem Ends.endsIn_or_cut {x y : Run α} {s s' : Store} (h : V.Ends w R (x s) (y s))
    (hy : y.EndsIn s s') :
    (∃ w', V.le w w' ∧ V.Inv w' s') ∨ V.cut ∧ ∃ t, x s = .error .exhausted t := by
  generalize x s = r at h ⊢
  cases hy with
  | value hy =>
    rw [hy] at h
    cases h with
    | ok le inv _ => exact .inl ⟨_, le, inv⟩
    | cut h => exact .inr ⟨h, _, rfl⟩
  | failure hy =>
    rw [hy] at h
    cases h with
    | failed le inv _ => exact .inl ⟨_, le, inv⟩
    | cut h => exact .inr ⟨h, _, rfl⟩

theorem Ends.endsIn {x y : Run α} {s s' : Store} (hcut : ¬ V.cut) (h : V.Ends w R (x s) (y s))
    (hy : y.EndsIn s s') : ∃ w', V.le w w' ∧ V.Inv w' s' :=
  (h.endsIn_or_cut hy).resolve_right fun hc => hcut hc.1

/-- Failures may be changed where both runs have the same. -/
theorem passesFailures (heq : ∀ e e', V.Fails e e' ↔ e = e') : V.simulation.PassesFailures where
  mapFailure _ h := rel_mapFailure (fun e e' he => (heq _ _).2 (congrArg _ ((heq e e').1 he))) h

/-- Variables may be set where the invariant does not depend on them. -/
theorem setsVariables
    (hset : ∀ {w s} block name v, V.Inv w s → V.Inv w (s.setVariable block name v)) :
    V.simulation.SetsVariables where
  setVariable := by
    rintro w a _ v v' name rfl h
    obtain rfl := Variable.eq_of_alike h
    exact ⟨fun s hi => .ok (V.le_refl w) (hset a name v hi) trivial⟩

/-- Calls may be counted where the invariant does not depend on it. -/
theorem rel_counted {c : Context} {x y : Run α}
    (hcount : ∀ {w s} f, V.Inv w s → V.Inv w (s.count f c)) (h : V.Rel w x y R) :
    V.Rel w (Run.counted c x) (Run.counted c y) R := by
  refine ⟨fun s hi => ?_⟩
  unfold Run.counted
  cases s.full c with
  | true => exact .failed (V.le_refl w) hi (V.fails_fresh _)
  | false =>
    simp only [Bool.false_eq_true, if_false]
    have hx := h.ends _ (hcount (· + 1) hi)
    unfold Run.ensuring
    generalize x (s.count (· + 1) c) = r at hx ⊢
    generalize y (s.count (· + 1) c) = r' at hx ⊢
    cases hx with
    | ok le inv h => exact .ok le (hcount (· - 1) inv) h
    | failed le inv h => exact .failed le (hcount (· - 1) inv) h
    | exhausted le inv => exact .exhausted le (hcount (· - 1) inv)
    | cut h => exact .cut h

end Vigil
end Workbook
