/-
Failures of the engine stay failures of the engine.

A failure crosses calls, callbacks and the border between the languages as a fault, and
comes back as a cause; neither its message nor whose fault it is gets lost on the way, however
often that happens.  So a failure of the engine that an expression has passes on to every
expression that reads it.  `Engine.stopping` is the engine up to such a read: it never comes
back from one.  An evaluation that it does not finish is therefore one in which a failure of the
engine was read, and `engine_failure_passes_on` says what that evaluation comes to.
-/
import Mathlib
import Workbook.Proofs.Outline.Crawl
import Workbook.Proofs.Session.Stack

open List (Forall₂)

namespace Workbook

/-! ## Crossing calls -/

/-- A cause on the other side of a call. -/
def Cause.crossed (c : Cause) : Cause :=
  .fault c.toFault

namespace Cause

@[simp] theorem message_crossed (c : Cause) : c.crossed.message = c.message :=
  c.message_toFault

@[simp] theorem isEngine_crossed (c : Cause) : c.crossed.isEngine = c.isEngine :=
  c.isEngine_toFault

theorem message_iterate_crossed (n : Nat) (c : Cause) : (crossed^[n] c).message = c.message := by
  induction n generalizing c with
  | zero => rfl
  | succ n ih => rw [Function.iterate_succ_apply, ih, message_crossed]

theorem isEngine_iterate_crossed (n : Nat) (c : Cause) :
    (crossed^[n] c).isEngine = c.isEngine := by
  induction n generalizing c with
  | zero => rfl
  | succ n ih => rw [Function.iterate_succ_apply, ih, isEngine_crossed]

end Cause

/-! ## Failures of the engine -/

namespace Outcome

/-- The message of an outcome that is a failure of the engine. -/
def engineFailure? : Outcome → Option String
  | .failure first _ => if first.kind = .engine then some first.message else none
  | .value .. => none

theorem engineFailure?_failed (isEngine : Bool) (message : String) (stack : Option String) :
    (failure ⟨.ofEngine isEngine, message, none, stack⟩ []).engineFailure? =
      if isEngine then some message else none := by
  cases isEngine <;> rfl

theorem exists_of_engineFailure? {o : Outcome} {m : String} (h : o.engineFailure? = some m) :
    ∃ first more, o = .failure first more ∧ first.kind = .engine ∧ first.message = m := by
  cases o with
  | value n v => cases h
  | failure first more =>
    simp only [engineFailure?] at h
    split at h
    case isTrue hk => exact ⟨first, more, rfl, hk, Option.some.inj h⟩
    case isFalse => cases h

end Outcome

/-- A failure of the engine with a message. -/
def Failure.Blames (m : String) (f : Failure) : Prop :=
  f.cause.isEngine = true ∧ f.cause.message = m

namespace Failure.Blames

variable {m : String} {f : Failure}

theorem ofCause {c : Cause} (hc : c.isEngine = true) (hm : c.message = m) :
    (Failure.ofCause c).Blames m :=
  ⟨hc, hm⟩

/-- What callers do not see makes no difference. -/
theorem unseen {g : Failure → Failure} (hg : Failure.Unseen g) (h : f.Blames m) : (g f).Blames m := by
  have hfault := hg f
  refine ⟨?_, ?_⟩
  · rw [← (g f).cause.isEngine_toFault, hfault, f.cause.isEngine_toFault]
    exact h.1
  · rw [← (g f).cause.message_toFault, hfault, f.cause.message_toFault]
    exact h.2

/-- Reading a failure of the engine under a name is one. -/
theorem failedRead {o : Outcome} (h : o.engineFailure? = some m) (name : String) :
    ∃ first more, o = .failure first more ∧
      (Failure.ofCause (Formula.failedRead name first.kind.name first.message)).Blames m := by
  obtain ⟨first, more, rfl, hk, rfl⟩ := Outcome.exists_of_engineFailure? h
  refine ⟨first, more, rfl, ?_⟩
  rw [hk]
  exact .ofCause rfl rfl

theorem engineFailure?_ofCause (h : f.Blames m) :
    (Outcome.ofCause f.cause).engineFailure? = some m := by
  refine (Outcome.engineFailure?_failed _ _ _).trans ?_
  rw [h.1, h.2]
  rfl

theorem engineFailure?_ofFailure (h : f.Blames m) :
    (Outcome.ofFailure f).engineFailure? = some m := by
  refine (Outcome.engineFailure?_failed _ _ _).trans ?_
  rw [h.1, h.2]
  rfl

end Failure.Blames

/-! ## Stopping at reads -/

/-- Whether a lookup was answered with a failure of the engine. -/
def Result.blamed? (m : String) (r : Option Result) : Bool :=
  r.any fun r => r.outcome.engineFailure? = some m

/-- Looks something up, and does not come back with a failure of the engine. -/
def Run.stopping (m : String) (x : Run (Option Result)) : Run (Option Result) := do
  let r ← x
  if Result.blamed? m r then exhausted else return r

namespace Engine

/-- Answers what an evaluation asks for.  What it does itself is done with an engine of its own;
where other expressions are evaluated or computed for it, that is done with the engine itself. -/
def answerStopping (m : String) (own : Engine) (fuel : Nat) : {α : Type} → Request α → Run α
  | _, .force thunk => (ofFuel (fuel + 1)).ask (.force thunk)
  | _, .folderValue place key => (ofFuel (fuel + 1)).ask (.folderValue place key)
  | _, .evaluate place key => Run.stopping m ((ofFuel (fuel + 1)).ask (.evaluate place key))
  | _, r => answer own fuel r

/-- The engine up to where an evaluation itself reads an expression with this failure of the
engine, under its name or by an import. -/
def stopping (m : String) : Nat → Engine
  | 0 => ⟨fun _ => Run.exhausted⟩
  | fuel + 1 => ⟨fun r => answerStopping m (stopping m fuel) fuel r⟩

/-- While an expression is evaluated, it reads an expression with this failure of the engine. -/
def Reads (m : String) (fuel place : Nat) (key : String) (s : Store) : Prop :=
  ∃ s', (stopping m fuel).evaluate place key s = .error .exhausted s'

end Engine

namespace Accord

variable {m : String}

/-- Where the first run stops, the second one has a failure of the engine. -/
def blaming (m : String) : Accord where
  lasting := Store.steady
  Inv _ := True
  keeps _ _ := trivial
  excuse := ⟨False, Failure.Blames m, fun h => h.elim, fun hf h => h.unseen hf⟩
  exact := False
  not_exact h _ := h

variable {α : Type} {w : Store} {R : Store → α → α → Prop}

/-- A run that leaves alone what is being executed agrees with itself. -/
theorem rel_self {x : Run α} (h : x.Steady) : (blaming m).Rel w x x fun _ => Eq := by
  refine ⟨?_⟩
  rintro s _ ⟨rfl, hw, -⟩
  generalize hr : x s = r
  cases r with
  | ok a s' => exact ⟨w, rfl, ⟨rfl, hw.trans (h.ends (.value hr)), trivial⟩, rfl⟩
  | error e s' =>
    cases e with
    | failed f => exact ⟨rfl, w, rfl, rfl, hw.trans (h.ends (.failure hr)), trivial⟩
    | exhausted => exact fun h => h.elim

/-- Looking something up agrees up to failures of the engine, if what follows these comes to one. -/
theorem rel_stopping {x : Run (Option Result)} (h : x.Steady) {k : Option Result → Run α}
    (hk : ∀ r w', (blaming m).Rel w' (k r) (k r) R)
    (blames : ∀ r s, Result.blamed? m r → ∃ f s', k r s = .error (.failed f) s' ∧ f.Blames m) :
    (blaming m).Rel w (Run.stopping m x >>= k) (x >>= k) R := by
  refine ⟨?_⟩
  rintro s _ ⟨rfl, hw, -⟩
  unfold Run.stopping
  rw [bind_assoc]
  show (blaming m).coupling.Ends w R (EStateM.bind x _ s) (EStateM.bind x k s)
  unfold EStateM.bind
  generalize hx : x s = q
  cases q with
  | ok r s' =>
    have hsteady := hw.trans (h.ends (.value hx))
    by_cases hr : Result.blamed? m r
    · obtain ⟨f, t, hf, hblames⟩ := blames r s' hr
      simp only [hr, hf]
      exact hblames
    · simp only [hr]
      exact (hk r w).ends s' s' ⟨rfl, hsteady, trivial⟩
  | error e s' =>
    cases e with
    | failed f => exact ⟨rfl, w, rfl, rfl, hw.trans (h.ends (.failure hx)), trivial⟩
    | exhausted => exact fun h => h.elim

/-- Reading what was looked up agrees up to failures of the engine. -/
theorem rel_read {x : Run (Option Result)} (h : x.Steady) (name : String) {null : α}
    {read : Outcome → Run α} (hnull : ∀ w', R w' null null)
    (hread : ∀ o w', (blaming m).Rel w' (read o) (read o) R)
    (hfails : ∀ first more, read (.failure first more) =
      Run.fail (Formula.failedRead name first.kind.name first.message)) :
    (blaming m).Rel w
      (do match ← Run.stopping m x with
        | some r => read r.outcome
        | none => return null)
      (do match ← x with
        | some r => read r.outcome
        | none => return null) R := by
  refine rel_stopping h (fun r w' => ?_) fun r s hr => ?_
  · cases r with
    | none => exact Coupling.rel_pure (hnull w')
    | some r => exact hread r.outcome w'
  · cases r with
    | none => cases hr
    | some r =>
      obtain ⟨first, more, ho, hblames⟩ := Failure.Blames.failedRead (of_decide_eq_true hr) name
      simp only [ho, hfails]
      exact ⟨_, s, rfl, hblames⟩

end Accord

/-! ## Imports -/

namespace Engine

variable (m : String) (fuel : Nat)

theorem stopping_evaluate (place : Nat) (key : String) :
    (stopping m fuel).ask (.evaluate place key) =
      Run.stopping m ((ofFuel fuel).ask (.evaluate place key)) := by
  cases fuel <;> rfl

theorem stopping_folderValue (place : Nat) (key : String) :
    (stopping m fuel).ask (.folderValue place key) = (ofFuel fuel).ask (.folderValue place key) := by
  cases fuel <;> rfl

/-- Modules are loaded as ever. -/
theorem stopping_moduleSession (σ : Session) (specifier : String) :
    (stopping m fuel).moduleSession σ specifier = (ofFuel fuel).moduleSession σ specifier := by
  unfold moduleSession loadModule
  simp only [stopping_folderValue]

end Engine

theorem Engine.steady_moduleSession (fuel : Nat) (σ : Session) (specifier : String) :
    ((Engine.ofFuel fuel).moduleSession σ specifier).Steady :=
  fun _ => (Accord.free_agree Store.steady fuel).serves.moduleSession (Accord.free_loads _)
    (Engine.total_ofFuel fuel) σ.tied_self specifier

namespace Accord

variable (m : String) (fuel : Nat) {w : Store}

theorem rel_importRelative (place : Nat) (σ : Session) (folder specifier : String) :
    (blaming m).Rel w
      ((Engine.stopping m fuel).importRelative place σ folder specifier >>= fun v =>
        Run.ofFaulty (Import.checked v))
      ((Engine.ofFuel fuel).importRelative place σ folder specifier >>= fun v =>
        Run.ofFaulty (Import.checked v))
      fun _ => Eq := by
  unfold Engine.importRelative Engine.valueAt?
  split
  · exact rel_self ((Lasting.keeps_fault _).bind fun _ => Lasting.keeps_ofFaulty _)
  split
  · exact rel_self ((Lasting.keeps_pure _).bind fun _ => Lasting.keeps_ofFaulty _)
  split
  · simp only [bind_assoc, pure_bind, Engine.stopping_evaluate]
    refine rel_stopping (Engine.steady_ofFuel fuel (.evaluate place _)) (fun r w' => ?_)
      fun r s hr => ?_
    · refine rel_self ((Lasting.keeps_changeSession _ ?_).bind fun _ => Lasting.keeps_ofFaulty _)
      exact fun _ => rfl
    · cases r with
      | none => cases hr
      | some r =>
        obtain ⟨first, more, ho, hk, rfl⟩ :=
          Outcome.exists_of_engineFailure? (of_decide_eq_true hr)
        have hchecked : Import.checked r.outcome.toValue = .error (.engine first.message) := by
          rw [ho]
          show Import.checked (.error first.kind.name first.message none) = _
          rw [hk]
          rfl
        simp only [Option.map_some, Option.getD_some, hchecked]
        exact ⟨_, _, rfl, rfl, rfl⟩
  · simp only [Engine.stopping_folderValue]
    refine rel_self (Lasting.Keeps.bind (Lasting.Keeps.bind ?_ fun v => ?_) fun _ => Lasting.keeps_ofFaulty _)
    · split
      · exact (Engine.steady_ofFuel fuel _).bind fun _ => Lasting.keeps_pure _
      · exact Lasting.keeps_pure _
    · cases v with
      | none => exact Lasting.keeps_fault _
      | some v =>
        refine (Lasting.keeps_changeSession _ ?_).bind fun _ => Lasting.keeps_pure _
        exact fun _ => rfl

theorem imports : (blaming m).simulation.Imports (Engine.stopping m fuel) (Engine.ofFuel fuel) := by
  rintro w a _ vs ws folder rfl hv
  obtain rfl := Value.eq_of_forall hv
  suffices h : (blaming m).Rel w ((Engine.stopping m fuel).importValue a folder vs)
      ((Engine.ofFuel fuel).importValue a folder vs) fun _ => Eq from
    imp h fun _ v _ h => h ▸ v.alike_self
  unfold Engine.importValue
  split
  · refine Coupling.rel_bind (SessionSimulation.rel_sessionThere (S := (blaming m).simulation) rfl)
      fun w' _ σ σ' hσ => ?_
    obtain rfl := Session.eq_of_tied hσ
    split
    · exact rel_importRelative m fuel a σ folder _
    · simp only [Engine.stopping_moduleSession, Engine.stopping_folderValue]
      exact rel_self ((Engine.steady_moduleSession fuel σ _).bind fun place =>
        (Engine.steady_ofFuel fuel (.folderValue place "")).bind fun _ => Lasting.keeps_ofFaulty _)
  · exact rel_self (Lasting.keeps_fault _)

/-- Up to a failure of the engine that it reads, the engine that stops there answers everything as
the engine itself does. -/
theorem responds_stopping :
    (blaming m).simulation.Responds (Engine.stopping m fuel) (Engine.ofFuel fuel) := by
  induction fuel with
  | zero => exact Simulation.responds_of_all fun _ _ => (blaming m).simulation.exhausted
  | succ fuel ih =>
    have hfollows : Simulation.Follows (Engine.stopping m (fuel + 1)) (Engine.stopping m fuel) fuel :=
      ⟨fun _ _ => rfl, fun _ => rfl, fun _ => rfl, fun _ _ => rfl, fun _ _ => rfl,
        fun _ _ _ => rfl, fun _ _ => rfl, fun _ _ => rfl, fun _ _ _ _ _ => rfl,
        fun _ _ _ => rfl, fun _ _ _ => rfl⟩
    refine ih.follow (blaming m).coupling.thorough (imports m fuel) (.inl rfl) hfollows (Simulation.follows_answer _ _)
      ⟨?_, ?_, ?_, ?_⟩
    · rintro w a _ rfl
      exact imp (rel_self (Engine.steady_ofFuel (fuel + 1) (.force a))) fun _ v _ h => h ▸ v.alike_self
    · rintro w a _ name key rfl
      exact rel_read (Engine.steady_ofFuel (fuel + 1) (.evaluate a key)) name (fun _ => .null)
        (fun o _ => Simulation.rel_typedOutcome (S := (blaming m).coupling.simulation) name
          o.alike_self) fun _ _ => rfl
    · rintro w a _ name key rfl
      exact rel_read (Engine.steady_ofFuel (fuel + 1) (.evaluate a key)) name (fun _ => .null)
        (fun o _ => Simulation.rel_nativeOutcome (S := (blaming m).coupling.simulation) name
          o.alike_self) fun _ _ => rfl
    · rintro w a _ key rfl
      exact imp (rel_self (Engine.steady_ofFuel (fuel + 1) (.folderValue a key)))
        fun _ v _ h => h ▸ v.alike_self

end Accord

/-! ## Executions -/

/-- Whatever outcome the second run comes to, the first one comes to it in the same store, unless
it stops and the outcome is a failure of the engine. -/
def Run.Blames (m : String) (x y : Run Outcome) : Prop :=
  ∀ s o s', y s = .ok o s' →
    x s = .ok o s' ∨ (∃ t, x s = .error .exhausted t) ∧ o.engineFailure? = some m

namespace Run.Blames

variable {m : String} {α : Type} {x y : Run α} {k l : α → Run Outcome}

theorem refl (x : Run Outcome) : Blames m x x :=
  fun _ _ _ h => .inl h

/-- Two runs are made longer that agree and do not fail. -/
theorem bind (h : ∀ w, (Accord.blaming m).Rel w x y fun _ => Eq) (hk : ∀ a, Blames m (k a) (l a)) :
    Blames m (x >>= k) (y >>= l) := by
  intro s o s' hrun
  have hends := (h s).ends s s ⟨rfl, .refl s, trivial⟩
  change EStateM.bind y l s = .ok o s' at hrun
  show EStateM.bind x k s = .ok o s' ∨
    (∃ t, EStateM.bind x k s = .error .exhausted t) ∧ o.engineFailure? = some m
  unfold EStateM.bind at hrun ⊢
  generalize x s = r at hends ⊢
  generalize y s = r' at hends hrun
  cases r' with
  | error e s₂ => cases hrun
  | ok b s₂ =>
    match r, hends with
    | .ok a s₁, hends =>
      obtain ⟨_, rfl, ⟨rfl, -, -⟩, rfl⟩ := hends
      exact hk a s₁ o s' hrun
    | .error .exhausted _, hends => exact hends.elim

/-- A failure that was caught is the same in both runs, or a failure of the engine. -/
theorem catching (h : ∀ w, (Accord.blaming m).Rel w x y fun _ => Eq)
    {k l : Except Failure α → Run Outcome} (hk : ∀ r, Blames m (k r) (l r))
    (fails : ∀ f, f.Blames m → ∃ o, o.engineFailure? = some m ∧ l (.error f) = pure o) :
    Blames m (Run.outcome x >>= k) (Run.outcome y >>= l) := by
  intro s o s' hrun
  have hends := (h s).ends s s ⟨rfl, .refl s, trivial⟩
  change EStateM.bind (outcome y) l s = .ok o s' at hrun
  show EStateM.bind (outcome x) k s = .ok o s' ∨
    (∃ t, EStateM.bind (outcome x) k s = .error .exhausted t) ∧ o.engineFailure? = some m
  unfold EStateM.bind outcome at hrun ⊢
  generalize x s = r at hends ⊢
  generalize y s = r' at hends hrun
  match r, r', hends with
  | .ok a s₁, .ok b s₂, hends =>
    obtain ⟨_, rfl, ⟨rfl, -, -⟩, rfl⟩ := hends
    exact hk _ s₁ o s' hrun
  | .error (.failed f) s₁, .error (.failed g) s₂, hends =>
    obtain ⟨rfl, _, rfl, rfl, -, -⟩ := hends
    exact hk _ s₁ o s' hrun
  | .error .exhausted _, .ok _ _, hends => exact hends.elim
  | .error .exhausted s₁, .error (.failed g) s₂, hg =>
    obtain ⟨o', ho', hl⟩ := fails g hg
    change l (.error g) s₂ = .ok o s' at hrun
    rw [hl] at hrun
    cases hrun
    exact .inr ⟨⟨s₁, rfl⟩, ho'⟩

end Run.Blames

namespace Accord

variable (m : String) (fuel : Nat)

theorem blames_executeFormula (place : Nat) (σ : Session) (x : Outline.Expression) :
    Run.Blames m ((Engine.stopping m fuel).executeFormula place σ x)
      ((Engine.ofFuel fuel).executeFormula place σ x) := by
  have he := responds_stopping m fuel
  unfold Engine.executeFormula
  simp only
  split
  · exact .refl _
  refine .catching (fun w => imp (he.runFormula (.folder _ rfl) _ _) fun _ _ _ => Value.eq_of_alike)
    (fun r => ?_) fun f hf => ⟨_, hf.engineFailure?_ofCause, rfl⟩
  cases r with
  | error f => exact .refl _
  | ok v =>
    exact .bind (fun w => imp (he.native v.alike_self) fun _ _ _ => Native.eq_of_alike)
      fun _ => .refl _

theorem blames_executeScript (place : Nat) (σ : Session) (x : Outline.Expression) :
    Run.Blames m ((Engine.stopping m fuel).executeScript place σ x)
      ((Engine.ofFuel fuel).executeScript place σ x) := by
  have he := responds_stopping m fuel
  unfold Engine.executeScript
  refine .bind (fun w => rel_compiled place σ _) fun c => ?_
  cases c with
  | error ps => exact .refl _
  | ok p =>
    refine .catching
      (fun w => imp (he.runScript (blaming m).coupling.thorough.toScripting (.folder _ rfl) _ _ _)
        fun _ _ _ => Native.eq_of_alike)
      (fun r => ?_) fun f hf => ⟨_, hf.engineFailure?_ofFailure, rfl⟩
    cases r <;> exact .refl _

theorem blames_execute (place : Nat) (σ : Session) (x : Outline.Expression) :
    Run.Blames m ((Engine.stopping m fuel).execute place σ x)
      ((Engine.ofFuel fuel).execute place σ x) := by
  refine .bind (fun w => rel_self ?_) fun _ => ?_
  · exact Lasting.keeps_changeSession place fun _ => rfl
  · split
    · exact blames_executeFormula m fuel place σ x
    · exact blames_executeScript m fuel place σ x

end Accord
/-! ## Evaluations -/

/-- An evaluation in which no failure of the engine is read goes as if nothing had stopped at one;
one in which such a failure is read ends with that failure, which is kept. -/
theorem Engine.evaluate_blames {m : String} {fuel place : Nat} {key : String} {s s' : Store}
    {r : Option Result} (hrun : (ofFuel fuel).evaluate place key s = .ok r s') :
    (stopping m fuel).evaluate place key s = .ok r s' ∨ Reads m fuel place key s ∧
      ∃ q, r = some q ∧ s'.result? place key = some q ∧ q.outcome.engineFailure? = some m := by
  have hsteady : s.Steady s' :=
    (steady_ofFuel (fuel + 1) (.evaluate place key)).ends (.value hrun)
  cases s.lookup place key with
  | absent hx =>
    rw [evaluate_absent _ hx] at hrun ⊢
    exact .inl hrun
  | kept hx hr =>
    rw [evaluate_kept _ hx hr] at hrun ⊢
    exact .inl hrun
  | circular hσ hx hr hk =>
    rw [evaluate_circular _ hσ hx hr hk] at hrun ⊢
    exact .inl hrun
  | @new σ x hσ hx hr hk =>
    unfold Reads
    rw [evaluate_new _ hσ hx hr hk, Accord.executing_run] at hrun ⊢
    have hblames := Accord.blames_execute m fuel place σ x (Accord.begun s place key)
    generalize (ofFuel fuel).execute place σ x (Accord.begun s place key) = y at hrun hblames
    cases y with
    | error e s₁ => cases hrun
    | ok o s₁ =>
      cases hrun
      obtain h | ⟨⟨t, h⟩, ho⟩ := hblames o s₁ rfl
      · rw [h]
        exact .inl rfl
      · rw [h]
        exact .inr ⟨⟨t, rfl⟩, _, rfl, Store.result?_finished hσ hsteady, ho⟩

/-- Failures of the engine pass on.  Crossing calls, however often, keeps the message of a cause
and whether the engine failed; and if an expression, while it is evaluated, reads another one that
has a failure of the engine, then it is itself kept with a failure of the engine, and with the
same message.  It makes no difference in which function that it called the read happened, nor in
which language.  Where nothing like that is read, the engine that stops at such reads does what
the engine itself does. -/
theorem engine_failure_passes_on (m : String) :
    (∀ (n : Nat) (c : Cause), (Cause.crossed^[n] c).message = c.message ∧
      (Cause.crossed^[n] c).isEngine = c.isEngine) ∧
    ∀ (fuel place : Nat) (key : String) (s s' : Store) (r : Option Result),
      (Engine.ofFuel fuel).evaluate place key s = .ok r s' →
        (Engine.Reads m fuel place key s →
          ∃ q first more, r = some q ∧ s'.result? place key = some q ∧
            q.outcome = .failure first more ∧ first.kind = .engine ∧ first.message = m) ∧
        (¬ Engine.Reads m fuel place key s →
          (Engine.stopping m fuel).evaluate place key s = .ok r s') := by
  refine ⟨fun n c => ⟨c.message_iterate_crossed n, c.isEngine_iterate_crossed n⟩,
    fun fuel place key s s' r hrun => ?_⟩
  obtain h | ⟨hreads, q, hq, hkept, hm⟩ := Engine.evaluate_blames (m := m) hrun
  · refine ⟨fun ⟨t, ht⟩ => ?_, fun _ => h⟩
    rw [h] at ht
    cases ht
  · refine ⟨fun _ => ?_, fun hnot => absurd hreads hnot⟩
    obtain ⟨first, more, ho, hk, hmessage⟩ := Outcome.exists_of_engineFailure? hm
    exact ⟨q, first, more, hq, hkept, ho, hk, hmessage⟩

/-! ## A callback that reads a failure -/

/-- A workbook with a formula that names itself, and another one that reads it from a function that
is called for each item of a list. -/
def callback : Tree :=
  ⟨[("", some [⟨.expression, "p", 1, some .formula⟩, ⟨.expression, "q", 1, some .formula⟩])],
    [("p", some "[true].map(fn(x) => q)"), ("q", some "q")], 2⟩

/-- A store with a session of the workbook. -/
def withCallback : Store :=
  { Store.empty with sessions := #[.start callback .standard [] .null .null 0 0] }

theorem ofTree_callback : Outline.ofTree callback =
    ⟨[Outline.root], [⟨"p", "p", ["p"], .formula, 1, ""⟩, ⟨"q", "q", ["q"], .formula, 1, ""⟩]⟩ :=
  (Outline.ofTree_of_expressions rfl (by decide) rfl).trans rfl

theorem callback_run :
    (match (Engine.stopping "circular reference: q" 20).evaluate 0 "p" withCallback,
        (Engine.ofFuel 20).evaluate 0 "p" withCallback with
      | .error .exhausted _, .ok _ _ => true
      | _, _ => false) = true := by
  unfold withCallback Session.start
  rw [ofTree_callback]
  decide +kernel

/-- What the callback reads fails the formula. -/
theorem callback_fails : ∃ s' q first more,
    Engine.Reads "circular reference: q" 20 0 "p" withCallback ∧
      (Engine.ofFuel 20).evaluate 0 "p" withCallback = .ok (some q) s' ∧
      s'.result? 0 "p" = some q ∧ q.outcome = .failure first more ∧ first.kind = .engine ∧
      first.message = "circular reference: q" := by
  have hrun := callback_run
  split at hrun
  case h_1 t r s' hstops hr =>
    have hreads : Engine.Reads "circular reference: q" 20 0 "p" withCallback := ⟨t, hstops⟩
    obtain ⟨-, passes⟩ := engine_failure_passes_on "circular reference: q"
    obtain ⟨q, first, more, rfl, hkept, ho, hk, hm⟩ := (passes 20 0 "p" _ s' r hr).1 hreads
    exact ⟨s', q, first, more, hreads, hr, hkept, ho, hk, hm⟩
  case h_2 => cases hrun

end Workbook
