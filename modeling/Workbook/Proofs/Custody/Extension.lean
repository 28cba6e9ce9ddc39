/-
Custodies that keep a property of stores besides.

What is done for sessions changes little that lasts, evaluating apart: frozen containers stay, and
so do the results of sessions and what they are executing (`Store.Calm`).  A property of stores that
such changes keep can be added to any custody (`Custody.besides`), so that only evaluating has to
be looked at again.
-/
import Workbook.Proofs.Session.Retention

open List (Forall₂)

namespace Workbook

/-! ## Calm changes -/

/-- A change that executes nothing: sessions have the same results and execute the same expressions,
and new sessions have no results. -/
structure Store.Calm (s s' : Store) : Prop extends Store.FrozenKept s s' where
  sessions : ∀ (place : Nat) (σ : Session), s.sessions[place]? = some σ →
    ∃ σ', s'.sessions[place]? = some σ' ∧ σ.Retains σ' ∧ σ'.results = σ.results
  fresh : ∀ (place : Nat) (σ' : Session), s'.sessions[place]? = some σ' →
    s.sessions[place]? = none → σ'.results = []

namespace Store

variable {s s' : Store}

theorem calm_of_sessions (kept : s.FrozenKept s') (h : s'.sessions = s.sessions) : s.Calm s' where
  toFrozenKept := kept
  sessions _ σ hσ := ⟨σ, h ▸ hσ, .refl σ, rfl⟩
  fresh place σ' hσ' hnone := by
    rw [h, hnone] at hσ'
    cases hσ'

theorem Ordinary.calm (h : s.Ordinary s') : s.Calm s' :=
  calm_of_sessions h.toFrozenKept h.sessions

theorem Calm.precedes (h : s.Calm s') (place : Nat) : s.Precedes place s' where
  toFrozenKept := h.toFrozenKept
  session σ hσ := by
    obtain ⟨σ', hσ', hretains, -⟩ := h.sessions place σ hσ
    exact ⟨σ', hσ', hretains.toPrecedes⟩

/-- A change of containers, thunks and modules only. -/
theorem calm_of_eq (arrays : s'.arrays = s.arrays) (objects : s'.objects = s.objects)
    (sessions : s'.sessions = s.sessions) : s.Calm s' :=
  calm_of_sessions ⟨fun _ _ hc _ => arrays ▸ hc, fun _ _ hc _ => objects ▸ hc⟩ sessions

theorem calm_changeSession (s : Store) (place : Nat) {f : Session → Session}
    (retains : ∀ σ : Session, σ.Retains (f σ)) (results : ∀ σ, (f σ).results = σ.results) :
    s.Calm (s.changeSession place f) where
  arrays _ _ hc _ := hc
  objects _ _ hc _ := hc
  sessions n σ hσ := by
    rw [getElem?_changeSession, hσ]
    by_cases hn : place = n
    · rw [if_pos hn]
      exact ⟨f σ, rfl, retains σ, results σ⟩
    · rw [if_neg hn]
      exact ⟨σ, rfl, .refl σ, rfl⟩
  fresh n σ' hσ' hnone := by
    rw [getElem?_changeSession, hnone] at hσ'
    split at hσ' <;> cases hσ'

theorem calm_minor (s : Store) (place : Nat) {f : Session → Session} (h : Session.Minor f) :
    s.Calm (s.changeSession place f) :=
  s.calm_changeSession place (fun σ => Session.retains_of_core (h σ)) fun σ =>
    show (f σ).core.results = σ.core.results by rw [h σ]

theorem calm_addSession (s : Store) {σ : Session} (h : σ.results = []) :
    s.Calm (s.addSession σ) where
  arrays _ _ hc _ := hc
  objects _ _ hc _ := hc
  sessions place τ hτ := ⟨τ, push_getElem? hτ, .refl τ, rfl⟩
  fresh place τ hτ hnone := by
    rw [addSession, Array.getElem?_push] at hτ
    split at hτ
    · cases hτ
      exact h
    · rw [hnone] at hτ
      cases hτ

end Store

/-! ## Couplings -/

/-- A coupling of a store with itself that keeps a property besides. -/
def Coupling.besides (C : Coupling) (J : Store → Prop)
    (ordinary : ∀ {s s'}, J s → s.Ordinary s' → J s') : Coupling :=
  { C with
    Inv := fun w s t => C.Inv w s t ∧ J s
    alike := fun hi => C.alike hi.1
    freshId := by
      rintro w s t ⟨hi, hJ⟩
      obtain ⟨w', hw, hi', hid⟩ := C.freshId hi
      exact ⟨w', hw, ⟨hi', ordinary hJ
        (Store.ordinary_of_eq rfl rfl rfl rfl rfl (Nat.le_succ _))⟩, hid⟩
    newArray := by
      rintro w s t xs ys ⟨hi, hJ⟩ h
      obtain ⟨w', hw, hi', hplace⟩ := C.newArray hi h
      exact ⟨w', hw, ⟨hi', ordinary hJ (s.ordinary_newArray _)⟩, hplace⟩
    newObject := by
      rintro w s t fs gs ⟨hi, hJ⟩ h
      obtain ⟨w', hw, hi', hplace⟩ := C.newObject hi h
      exact ⟨w', hw, ⟨hi', ordinary hJ (s.ordinary_newObject _)⟩, hplace⟩
    arrayFrozen := fun hi => C.arrayFrozen hi.1
    objectFrozen := fun hi => C.objectFrozen hi.1
    modifyArray := fun hi ha hz hfg hf =>
      ⟨C.modifyArray hi.1 ha hz hfg hf, ordinary hi.2 (Store.ordinary_modifyArray hz _)⟩
    modifyObject := fun hi ha hz hfg hf =>
      ⟨C.modifyObject hi.1 ha hz hfg hf, ordinary hi.2 (Store.ordinary_modifyObject hz _)⟩
    freeze := by
      rintro w s t v v' ⟨hi, hJ⟩ h
      obtain ⟨w', hw, hi'⟩ := C.freeze hi h
      exact ⟨w', hw, hi', ordinary hJ (s.ordinary_freeze v)⟩
    newBlock := by
      rintro w s t a b ⟨hi, hJ⟩ h
      obtain ⟨w', hw, hi', hplace⟩ := C.newBlock hi h
      exact ⟨w', hw, ⟨hi', ordinary hJ
        (Store.ordinary_of_eq rfl rfl rfl rfl rfl (Nat.le_refl _))⟩, hplace⟩
    setVariable := fun name hi ha hv => ⟨C.setVariable name hi.1 ha hv,
      ordinary hi.2 (Store.ordinary_of_eq rfl rfl rfl rfl rfl (Nat.le_refl _))⟩
    remember := fun name hi ha hv => ⟨C.remember name hi.1 ha hv,
      ordinary hi.2 (Store.ordinary_of_eq rfl rfl rfl rfl rfl (Nat.le_refl _))⟩
    log := fun line hi => ⟨C.log line hi.1,
      ordinary hi.2 (Store.ordinary_of_eq rfl rfl rfl rfl rfl (Nat.le_refl _))⟩
    newEvaluation := by
      rintro w s t sc sc' maxDepth ⟨hi, hJ⟩ h
      obtain ⟨w', hw, hi', hplace⟩ := C.newEvaluation maxDepth hi h
      exact ⟨w', hw, ⟨hi', ordinary hJ
        (Store.ordinary_of_eq rfl rfl rfl rfl rfl (Nat.le_refl _))⟩, hplace⟩
    newExecution := by
      rintro w s t sc sc' maxDepth ⟨hi, hJ⟩ h
      obtain ⟨w', hw, hi', hplace⟩ := C.newExecution maxDepth hi h
      exact ⟨w', hw, ⟨hi', ordinary hJ
        (Store.ordinary_of_eq rfl rfl rfl rfl rfl (Nat.le_refl _))⟩, hplace⟩
    busy := fun hi => C.busy hi.1
    scriptBusy := fun hi => C.scriptBusy hi.1
    countCalls := fun f hi ha => ⟨C.countCalls f hi.1 ha,
      ordinary hi.2 (Store.ordinary_of_eq rfl rfl rfl rfl rfl (Nat.le_refl _))⟩
    countScriptCalls := fun f hi ha => ⟨C.countScriptCalls f hi.1 ha,
      ordinary hi.2 (Store.ordinary_of_eq rfl rfl rfl rfl rfl (Nat.le_refl _))⟩
    session? := fun hi => C.session? hi.1
    stuck := fun hi => C.stuck hi.1 }

/-! ## Custodies -/

namespace Custody

/-- A custody that keeps a property besides. -/
def besides (K : Custody) (J : Store → Prop) (calm : ∀ {s s'}, J s → s.Calm s' → J s') :
    Custody where
  toCoupling := K.toCoupling.besides J fun hJ h => calm hJ h.calm
  same hi := K.same hi.1
  narrow := K.narrow
  thunks := K.thunks
  sessions := K.sessions
  Made := K.Made
  Settles := K.Settles
  Outlined := K.Outlined
  Fixed := K.Fixed
  Inner := K.Inner
  made_mono := K.made_mono
  outlined_mono := K.outlined_mono
  inner_mono := K.inner_mono
  fixed_mono := K.fixed_mono
  pending hi := K.pending hi.1
  value := K.value
  done hi := K.done hi.1
  valid hi := K.valid hi.1
  outlined hi := K.outlined hi.1
  gone key hi := K.gone key hi.1
  newThunk := by
    rintro w s work hwork ⟨hi, hJ⟩
    obtain ⟨w', hw, hi', hmade⟩ := K.newThunk work hwork hi
    exact ⟨w', hw, ⟨hi', calm hJ (Store.calm_of_eq rfl rfl rfl)⟩, hmade⟩
  settle hi hm hv hs := ⟨K.settle hi.1 hm hv hs, calm hi.2 (Store.calm_of_eq rfl rfl rfl)⟩
  scripts f hi := ⟨K.scripts f hi.1, calm hi.2 (Store.calm_minor _ _ fun _ => rfl)⟩
  keepFolder hi ho hes := ⟨K.keepFolder hi.1 ho hes, calm hi.2 (Store.calm_minor _ _ fun _ => rfl)⟩
  keepImport hi ho hv hs :=
    ⟨K.keepImport hi.1 ho hv hs, calm hi.2 (Store.calm_minor _ _ fun _ => rfl)⟩
  newSession := by
    rintro w s σ ⟨hi, hJ⟩ hvalid hbegun
    obtain ⟨w', hw, hi', hinner⟩ := K.newSession hi hvalid hbegun
    exact ⟨w', hw, ⟨hi', calm hJ (s.calm_addSession hbegun.results)⟩, hinner⟩
  release hi hinner := by
    refine ⟨K.release hi.1 hinner, calm hi.2 (Store.calm_changeSession _ _ (fun σ => ?_) fun _ => rfl)⟩
    exact ⟨⟨(fun h => nomatch h), rfl, rfl, id⟩, rfl, fun _ _ => rfl⟩
  changeModules f hi := ⟨K.changeModules f hi.1, calm hi.2 (Store.calm_of_eq rfl rfl rfl)⟩
  fix := by
    rintro w s n ⟨hi, hJ⟩ hn
    obtain ⟨w', hw, hi', hfixed⟩ := K.fix hi hn
    exact ⟨w', hw, ⟨hi', calm hJ (s.ordinary_freeze n).calm⟩, hfixed⟩

end Custody
end Workbook
