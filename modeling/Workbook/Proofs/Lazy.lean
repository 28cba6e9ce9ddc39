/-
Lazy values.

A lazy value is computed when it is first read, and what it comes to is filled in.  If it is read
while it is computed it is computed once more, and of the two values the one that was there first
stays: there is one equation for each way that a read goes.  What has been filled in stays filled in
(`Store.Onward`), so that what is known of a slot is known in every later store.
-/
import Workbook.Proofs.Session.Query

namespace Workbook

/-! ## Values that are known -/

namespace Store

/-- No lazy value goes away, and those that have been computed stay. -/
structure Onward (s s' : Store) : Prop where
  size_le : s.thunks.size ≤ s'.thunks.size
  done : ∀ (thunk : Nat) (v : Value), s.thunks[thunk]? = some (.done v) →
    s'.thunks[thunk]? = some (.done v)

/-- The value that a slot is known to have. -/
inductive Knows (s : Store) : Slot → Value → Prop
  | ready {v : Value} : s.Knows (.ready v) v
  | done {thunk : Nat} {v : Value} (h : s.thunks[thunk]? = some (.done v)) :
      s.Knows (.lazy thunk) v

variable {s s' s'' : Store} {slot : Slot} {thunk : Nat} {u v : Value}

theorem Knows.unique (h : s.Knows slot u) (h' : s.Knows slot v) : u = v := by
  cases h with
  | ready =>
    cases h'
    rfl
  | done h =>
    cases h' with
    | done h' => simpa [h] using h'

theorem Knows.onward (h : s.Knows slot v) (onward : s.Onward s') : s'.Knows slot v := by
  cases h with
  | ready => exact .ready
  | done h => exact .done (onward.done _ _ h)

theorem not_knows_of_pending {w : Work} (h : s.thunks[thunk]? = some (.pending w)) (v : Value) :
    ¬ s.Knows (.lazy thunk) v := by
  intro hknows
  cases hknows with
  | done hdone =>
    rw [h] at hdone
    cases hdone

theorem Onward.refl (s : Store) : s.Onward s :=
  ⟨Nat.le_refl _, fun _ _ => id⟩

theorem Onward.trans (h : s.Onward s') (h' : s'.Onward s'') : s.Onward s'' :=
  ⟨Nat.le_trans h.size_le h'.size_le, fun thunk v hv => h'.done thunk v (h.done thunk v hv)⟩

theorem onward_addThunk (s : Store) (w : Work) : s.Onward (s.addThunk w) := by
  unfold addThunk
  refine ⟨?_, fun thunk v hv => ?_⟩
  · rw [Array.size_push]
    exact Nat.le_succ _
  · obtain ⟨hlt, -⟩ := Array.getElem?_eq_some_iff.1 hv
    rw [Array.getElem?_push, if_neg (Nat.ne_of_lt hlt)]
    exact hv

theorem getElem?_settle (s : Store) (thunk : Nat) (v : Value) (place : Nat) :
    (s.settle thunk v).thunks[place]? =
      if thunk = place then if thunk < s.thunks.size then some (.done v) else none
      else s.thunks[place]? := by
  unfold settle
  rw [Array.set!_eq_setIfInBounds, Array.getElem?_setIfInBounds]

/-- Filling in a value forgets none if there was none. -/
theorem onward_settle (still : ∀ u, s.thunks[thunk]? ≠ some (.done u)) :
    s.Onward (s.settle thunk v) := by
  refine ⟨Nat.le_of_eq ?_, fun place u hu => ?_⟩
  · unfold settle
    rw [Array.set!_eq_setIfInBounds, Array.size_setIfInBounds]
  · have hne : thunk ≠ place := by
      rintro rfl
      exact still u hu
    rw [getElem?_settle, if_neg hne]
    exact hu

theorem knows_settle (h : thunk < s.thunks.size) : (s.settle thunk v).Knows (.lazy thunk) v :=
  .done (by rw [getElem?_settle, if_pos rfl, if_pos h])

end Store

/-! ## Reading lazy values -/

namespace Engine

variable {engine : Engine} {thunk : Nat} {w : Work} {s s' : Store} {u v : Value}

theorem force_done (h : s.thunks[thunk]? = some (.done v)) : engine.force thunk s = .ok v s := by
  unfold force
  rw [Run.get_bind, h]
  rfl

theorem force_missing (h : s.thunks[thunk]? = none) : engine.force thunk s = .ok .null s := by
  unfold force
  rw [Run.get_bind, h]
  rfl

/-- A computation that comes to a value first. -/
theorem force_first (h : s.thunks[thunk]? = some (.pending w))
    (run : engine.perform w s = .ok v s') (still : ∀ u, s'.thunks[thunk]? ≠ some (.done u)) :
    engine.force thunk s = .ok v (s'.settle thunk v) := by
  unfold force
  rw [Run.get_bind, h]
  simp only
  rw [Run.bind_run run, Run.get_bind]
  cases hnow : s'.thunks[thunk]? with
  | none => rfl
  | some t =>
    cases t with
    | pending w' => rfl
    | done u => exact absurd hnow (still u)

/-- A computation during which a value was filled in. -/
theorem force_late (h : s.thunks[thunk]? = some (.pending w))
    (run : engine.perform w s = .ok v s') (already : s'.thunks[thunk]? = some (.done u)) :
    engine.force thunk s = .ok u s' := by
  unfold force
  rw [Run.get_bind, h]
  simp only
  rw [Run.bind_run run, Run.get_bind, already]
  rfl

/-- Each way that a read may have gone. -/
theorem force_cases (h : engine.force thunk s = .ok v s') :
    (s.thunks[thunk]? = none ∧ v = .null ∧ s' = s) ∨
    (s.thunks[thunk]? = some (.done v) ∧ s' = s) ∨
    ∃ w u s₁, s.thunks[thunk]? = some (.pending w) ∧ engine.perform w s = .ok u s₁ ∧
      ((s₁.thunks[thunk]? = some (.done v) ∧ s' = s₁) ∨
        (∀ u, s₁.thunks[thunk]? ≠ some (.done u)) ∧ v = u ∧ s' = s₁.settle thunk u) := by
  cases hthunk : s.thunks[thunk]? with
  | none =>
    rw [force_missing hthunk] at h
    cases h
    exact .inl ⟨rfl, rfl, rfl⟩
  | some t =>
    cases t with
    | done u =>
      rw [force_done hthunk] at h
      cases h
      exact .inr (.inl ⟨rfl, rfl⟩)
    | pending w =>
      cases hrun : engine.perform w s with
      | error e s₁ =>
        unfold force at h
        rw [Run.get_bind, hthunk] at h
        simp only at h
        rw [Run.bind_error hrun] at h
        cases h
      | ok u s₁ =>
        refine .inr (.inr ⟨w, u, s₁, rfl, hrun, ?_⟩)
        by_cases hnow : ∃ first, s₁.thunks[thunk]? = some (.done first)
        · obtain ⟨first, hfirst⟩ := hnow
          rw [force_late hthunk hrun hfirst] at h
          cases h
          exact .inl ⟨hfirst, rfl⟩
        · have still : ∀ u, s₁.thunks[thunk]? ≠ some (.done u) := not_exists.1 hnow
          rw [force_first hthunk hrun still] at h
          cases h
          exact .inr ⟨still, rfl, rfl⟩

end Engine
end Workbook
