/-
Results stand on frozen ground.

In a store that is `Firm` nothing refers to what is not there, all that is in a frozen
container is frozen, and so are the values of the results that sessions keep.  Everything
that is done with sessions keeps stores firm.
-/
import Workbook.Proofs.Coupling.Freezing
import Workbook.Proofs.Custody.Engine

open List (Forall₂)

namespace Workbook

/-- A sound store in which frozen containers and the results of sessions are frozen all the
way down. -/
structure Store.Firm (s : Store) : Prop extends Store.Sound s where
  tight : s.FrozenAll s.Sealed
  results : ∀ {place : Nat} {σ : Session}, s.sessions[place]? = some σ → ∀ e ∈ σ.results,
    ∀ n v, e.2.outcome = .value n v → s.Sealed n

/-- A store is later than another: it has all that was frozen in that one, and no fewer
containers. -/
structure Store.Later (w s : Store) : Prop extends Store.FrozenKept w s where
  moreArrays : w.arrays.size ≤ s.arrays.size
  moreObjects : w.objects.size ≤ s.objects.size

theorem Thunk.Valid.mono {p q : Pairing} (hpq : p.Within q) {thunk : Thunk}
    (h : thunk.Valid p) : thunk.Valid q := by
  cases thunk with
  | done v => exact Value.Alike.mono h hpq
  | pending work =>
    cases work with
    | value v => exact Value.Alike.mono h hpq
    | _ => trivial

theorem Session.Valid.mono {p q : Pairing} (hpq : p.Within q) {σ : Session} (h : σ.Valid p) :
    σ.Valid q :=
  ⟨h.alike.mono hpq, fun e he => (h.results e he).mono hpq,
    fun e he => (h.folderValues e he).mono hpq, fun e he => (h.imports e he).mono hpq⟩

namespace Store

theorem Later.refl (s : Store) : s.Later s :=
  ⟨.refl s, Nat.le_refl _, Nat.le_refl _⟩

theorem Later.trans {s t u : Store} (h : s.Later t) (h' : t.Later u) : s.Later u :=
  ⟨h.toFrozenKept.trans h'.toFrozenKept, Nat.le_trans h.moreArrays h'.moreArrays,
    Nat.le_trans h.moreObjects h'.moreObjects⟩

theorem Later.within {s t : Store} (h : s.Later t) : s.bound.Within t.bound :=
  bound_within h.moreArrays h.moreObjects

theorem firm_empty : empty.Firm where
  toSound := sound_empty
  tight := ⟨fun _ _ h => (nomatch h), fun _ _ h => (nomatch h)⟩
  results h := nomatch h

namespace Firm

variable {s s' : Store} (h : s.Firm)
include h

/-! ## Changes of places -/

/-- A change of places keeps a store firm if nothing is frozen through it. -/
theorem ordinary (ho : s.Ordinary s') (back : s'.FrozenKept s) (hp : s.bound.Within s'.bound)
    (places : Store.Matches s'.bound s' s') : s'.Firm where
  places := places
  thunks ht := (h.thunks (ho.thunks ▸ ht)).mono hp
  sessions hσ := (h.sessions (ho.sessions ▸ hσ)).mono hp
  tight :=
    ⟨fun place c hc hf v hv =>
        (h.tight.arrays place c (back.arrays place c hc hf) hf v hv).mono ho.toFrozenKept,
      fun place c hc hf f hm =>
        (h.tight.objects place c (back.objects place c hc hf) hf f hm).mono ho.toFrozenKept⟩
  results hσ e he n v hn := (h.results (ho.sessions ▸ hσ) e he n v hn).mono ho.toFrozenKept

/-- Changes of blocks, evaluations and executions. -/
theorem changePlaces (places : Store.Matches s.bound s' s') (arrays : s'.arrays = s.arrays)
    (objects : s'.objects = s.objects) (thunks : s'.thunks = s.thunks)
    (sessions : s'.sessions = s.sessions) (modules : s'.modules = s.modules)
    (fresh : s.fresh ≤ s'.fresh) : s'.Firm := by
  have hb : s'.bound = s.bound := bound_congr (by rw [arrays]) (by rw [objects])
  refine h.ordinary (ordinary_of_eq arrays objects thunks sessions modules fresh)
    ⟨fun _ _ hc _ => arrays ▸ hc, fun _ _ hc _ => objects ▸ hc⟩ ?_ ?_
  · rw [hb]
    exact .refl _
  · rw [hb]
    exact places

theorem newArray {xs : Array Native} (hxs : ∀ v ∈ xs.toList, s.Has v) :
    Store.Firm { s with arrays := s.arrays.push (.ofContent xs) } := by
  have hp : s.bound.Within (Store.bound { s with arrays := s.arrays.push (.ofContent xs) }) :=
    bound_within (by simp) (Nat.le_refl _)
  refine h.ordinary (s.ordinary_newArray _) ⟨fun place c hc hf => ?_, fun _ _ hc _ => hc⟩ hp ?_
  · rw [Array.getElem?_push] at hc
    split at hc
    · cases hc
      cases hf
    · exact hc
  · have hg := grows_bounded s.arrays.size
    rw [← @Array.size_push _ s.arrays (.ofContent xs)] at hg
    exact h.places.addArray hg (unique_bounded _)
      ⟨List.forall₂_same.2 fun v hv => (hxs v hv).mono hp, rfl, rfl⟩

theorem newObject {fs : Fields} (hfs : ∀ f ∈ fs, s.Has f.2) :
    Store.Firm { s with objects := s.objects.push (.ofContent fs) } := by
  have hp : s.bound.Within (Store.bound { s with objects := s.objects.push (.ofContent fs) }) :=
    bound_within (Nat.le_refl _) (by simp)
  refine h.ordinary (s.ordinary_newObject _) ⟨fun _ _ hc _ => hc, fun place c hc hf => ?_⟩ hp ?_
  · rw [Array.getElem?_push] at hc
    split at hc
    · cases hc
      cases hf
    · exact hc
  · have hg := grows_bounded s.objects.size
    rw [← @Array.size_push _ s.objects (.ofContent fs)] at hg
    exact h.places.addObject hg (unique_bounded _)
      ⟨List.forall₂_same.2 fun (k, v) hv => .mk k ((hfs (k, v) hv).mono hp), rfl, rfl⟩

theorem modifyArray {a : Nat} {f : Container (Array Native) → Container (Array Native)}
    (ha : s.bound.arrays a a) (hz : s.arrayFrozen a = false)
    (hf : ∀ c d, s.bound.array c d → s.bound.array (f c) (f d))
    (hfrozen : ∀ c, (f c).frozen = c.frozen) : (s.modifyArray a f).Firm := by
  have hb : (s.modifyArray a f).bound = s.bound := bound_congr (by simp [Store.modifyArray]) rfl
  refine h.ordinary (ordinary_modifyArray hz f) ⟨fun place c hc hcf => ?_, fun _ _ hc _ => hc⟩
    (hb ▸ .refl _) (hb ▸ h.places.modifyArray ha hf)
  rw [Store.modifyArray, Array.getElem?_modify] at hc
  split at hc
  · rename_i heq
    subst heq
    obtain ⟨d, hd, rfl⟩ := Option.map_eq_some_iff.1 hc
    rw [hfrozen] at hcf
    simp [arrayFrozen, hd, hcf] at hz
  · exact hc

theorem modifyObject {a : Nat} {f : Container Fields → Container Fields}
    (ha : s.bound.objects a a) (hz : s.objectFrozen a = false)
    (hf : ∀ c d, s.bound.object c d → s.bound.object (f c) (f d))
    (hfrozen : ∀ c, (f c).frozen = c.frozen) : (s.modifyObject a f).Firm := by
  have hb : (s.modifyObject a f).bound = s.bound := bound_congr rfl (by simp [Store.modifyObject])
  refine h.ordinary (ordinary_modifyObject hz f) ⟨fun _ _ hc _ => hc, fun place c hc hcf => ?_⟩
    (hb ▸ .refl _) (hb ▸ h.places.modifyObject ha hf)
  rw [Store.modifyObject, Array.getElem?_modify] at hc
  split at hc
  · rename_i heq
    subst heq
    obtain ⟨d, hd, rfl⟩ := Option.map_eq_some_iff.1 hc
    rw [hfrozen] at hcf
    simp [objectFrozen, hd, hcf] at hz
  · exact hc

theorem freeze {n : Native} (hn : s.Has n) :
    (s.freeze n).Firm ∧ s.Freezes (s.freeze n) ∧ (s.freeze n).Sealed n := by
  obtain ⟨hf, tight, sealed⟩ := freeze_tight h.places h.tight hn
  have hb := hf.bound
  have ho := hf.ordinary
  refine ⟨⟨⟨hb ▸ hf.places h.places, fun ht => ?_, fun hσ => ?_⟩, tight, fun hσ e he n v hn => ?_⟩,
    hf, sealed⟩
  · exact hb ▸ h.thunks (ho.thunks ▸ ht)
  · exact hb ▸ h.sessions (ho.sessions ▸ hσ)
  · exact (h.results (ho.sessions ▸ hσ) e he n v hn).mono ho.toFrozenKept

/-! ## Changes for sessions -/

theorem changeSession {place : Nat} {f : Session → Session}
    (valid : ∀ σ, σ.Valid s.bound → (f σ).Valid s.bound)
    (results : ∀ σ, ∀ e ∈ (f σ).results, e ∈ σ.results ∨
      ∀ n v, e.2.outcome = .value n v → s.Sealed n) : (s.changeSession place f).Firm where
  places := { h.places with }
  thunks := h.thunks
  sessions hσ := by
    rw [Store.changeSession, Array.getElem?_modify] at hσ
    split at hσ
    · obtain ⟨τ, hτ, rfl⟩ := Option.map_eq_some_iff.1 hσ
      exact valid τ (h.sessions hτ)
    · exact h.sessions hσ
  tight := ⟨h.tight.arrays, h.tight.objects⟩
  results hσ e he n v hn := by
    rw [Store.changeSession, Array.getElem?_modify] at hσ
    split at hσ
    · obtain ⟨τ, hτ, rfl⟩ := Option.map_eq_some_iff.1 hσ
      obtain he | hs := results τ e he
      · exact h.results hτ e he n v hn
      · exact hs n v hn
    · exact h.results hσ e he n v hn

theorem addSession {σ : Session} (valid : σ.Valid s.bound) (results : σ.results = []) :
    (s.addSession σ).Firm where
  places := { h.places with }
  thunks := h.thunks
  sessions hτ := by
    rw [Store.addSession, Array.getElem?_push] at hτ
    split at hτ
    · cases hτ
      exact valid
    · exact h.sessions hτ
  tight := ⟨h.tight.arrays, h.tight.objects⟩
  results hτ e he n v hn := by
    rw [Store.addSession, Array.getElem?_push] at hτ
    split at hτ
    · cases hτ
      rw [results] at he
      cases he
    · exact h.results hτ e he n v hn

theorem addThunk {work : Work} (hwork : ∀ v, work ≠ .value v) : (s.addThunk work).Firm where
  places := { h.places with }
  thunks ht := by
    rw [Store.addThunk, Array.getElem?_push] at ht
    split at ht
    · cases ht
      cases work with
      | value v => exact absurd rfl (hwork v)
      | _ => trivial
    · exact h.thunks ht
  sessions := h.sessions
  tight := ⟨h.tight.arrays, h.tight.objects⟩
  results := h.results

theorem settle {t : Nat} {v : Value} (hv : Value.Alike s.bound v v) : (s.settle t v).Firm where
  places := { h.places with }
  thunks ht := by
    rw [Store.settle, Array.set!_eq_setIfInBounds, Array.getElem?_setIfInBounds] at ht
    split at ht
    · split at ht
      · cases ht
        exact hv
      · cases ht
    · exact h.thunks ht
  sessions := h.sessions
  tight := ⟨h.tight.arrays, h.tight.objects⟩
  results := h.results

end Firm
/-! ## The custody of firm stores -/

/-- A firm store that is later than another with as many containers. -/
structure Standing (w s : Store) : Prop where
  kept : w.FrozenKept s
  arrays : s.arrays.size = w.arrays.size
  objects : s.objects.size = w.objects.size
  firm : s.Firm

namespace Standing

variable {w s s' : Store}

theorem refl (h : s.Firm) : s.Standing s :=
  ⟨.refl s, rfl, rfl, h⟩

theorem bound (h : w.Standing s) : s.bound = w.bound :=
  bound_congr h.arrays h.objects

theorem later (h : w.Standing s) : w.Later s :=
  ⟨h.kept, Nat.le_of_eq h.arrays.symm, Nat.le_of_eq h.objects.symm⟩

theorem has (h : w.Standing s) {n : Native} (hn : w.Has n) : s.Has n := by
  unfold Has
  rw [h.bound]
  exact hn

theorem thunk (h : w.Standing s) {t : Nat} {thunk : Thunk} (ht : s.thunks[t]? = some thunk) :
    thunk.Valid w.bound :=
  h.bound ▸ h.firm.thunks ht

theorem session (h : w.Standing s) {place : Nat} {σ : Session}
    (hσ : s.sessions[place]? = some σ) : σ.Valid w.bound :=
  h.bound ▸ h.firm.sessions hσ

theorem places (h : w.Standing s) : Store.Matches w.bound s s :=
  h.bound ▸ h.firm.places

/-- A store that follows and has more containers is where a new world begins. -/
theorem begin (h : w.Standing s) (hs : s.Later s') (firm : s'.Firm) :
    w.Later s' ∧ s'.Standing s' :=
  ⟨h.later.trans hs, .refl firm⟩

/-- A change of places. -/
theorem changePlaces (h : w.Standing s) (places : Store.Matches w.bound s' s')
    (arrays : s'.arrays = s.arrays) (objects : s'.objects = s.objects)
    (thunks : s'.thunks = s.thunks) (sessions : s'.sessions = s.sessions)
    (modules : s'.modules = s.modules) (fresh : s.fresh ≤ s'.fresh) : w.Standing s' where
  kept := h.kept.trans (ordinary_of_eq arrays objects thunks sessions modules fresh).toFrozenKept
  arrays := by rw [arrays, h.arrays]
  objects := by rw [objects, h.objects]
  firm := h.firm.changePlaces (h.bound ▸ places) arrays objects thunks sessions modules fresh

/-- A change that leaves containers alone. -/
theorem change (h : w.Standing s) (arrays : s'.arrays = s.arrays) (objects : s'.objects = s.objects)
    (firm : s'.Firm) : w.Standing s' where
  kept := ⟨fun place c hc hf => arrays ▸ h.kept.arrays place c hc hf,
    fun place c hc hf => objects ▸ h.kept.objects place c hc hf⟩
  arrays := by rw [arrays, h.arrays]
  objects := by rw [objects, h.objects]
  firm := firm

end Standing

/-- Functions that agree on what is at a place change it alike. -/
theorem modify_congr {α : Type} {xs : Array α} {i : Nat} {f g : α → α}
    (h : ∀ a, xs[i]? = some a → f a = g a) : xs.modify i f = xs.modify i g := by
  refine Array.ext_getElem? fun j => ?_
  rw [Array.getElem?_modify, Array.getElem?_modify]
  split
  · rename_i hij
    subst hij
    exact Option.map_congr h
  · rfl

/-- The coupling of a firm store with itself.  A world is a store to which it is later. -/
def firmCoupling : Coupling where
  World := Store
  le := Later
  le_refl := .refl
  le_trans := .trans
  pairing := bound
  within h := h.within
  Inv w s t := s = t ∧ w.Standing s
  alike := by
    rintro w s _ ⟨rfl, h⟩
    exact h.places.alike (bound_within_same w)
  freshId := by
    rintro w s _ ⟨rfl, h⟩
    exact ⟨w, .refl w, ⟨rfl, h.changePlaces { h.places with } rfl rfl rfl rfl rfl (Nat.le_succ _)⟩, rfl⟩
  newArray := by
    rintro w s _ xs ys ⟨rfl, h⟩ hxs
    obtain rfl : xs = ys := Array.toList_inj.1
      (Native.eq_of_forall (Native.forall_mono hxs (bound_within_same w)))
    have firm := h.firm.newArray fun v hv => h.has (List.forall₂_same.1 hxs v hv)
    obtain ⟨hw, hs⟩ := h.begin
      ⟨(s.ordinary_newArray _).toFrozenKept, by simp, Nat.le_refl _⟩ firm
    exact ⟨_, hw, ⟨rfl, hs⟩, rfl, by simp⟩
  newObject := by
    rintro w s _ fs gs ⟨rfl, h⟩ hfs
    obtain rfl : fs = gs := Keyed.eq_of_forall (fun _ _ => Native.eq_of_alike)
      (Native.fields_mono hfs (bound_within_same w))
    have firm := h.firm.newObject fun f hf => h.has (List.forall₂_same.1 hfs f hf).value
    obtain ⟨hw, hs⟩ := h.begin
      ⟨(s.ordinary_newObject _).toFrozenKept, Nat.le_refl _, by simp⟩ firm
    exact ⟨_, hw, ⟨rfl, hs⟩, rfl, by simp⟩
  arrayFrozen := by
    rintro w s _ a _ ⟨rfl, -⟩ ⟨rfl, -⟩
    rfl
  objectFrozen := by
    rintro w s _ a _ ⟨rfl, -⟩ ⟨rfl, -⟩
    rfl
  modifyArray := by
    rintro w s _ a _ f g ⟨rfl, h⟩ ⟨rfl, ha⟩ hz hfg hfrozen
    have heq {c d : Container (Array Native)} (hc : w.bound.array c d) : c = d :=
      Container.eq_of_alike (fun _ _ hv => Array.toList_inj.1
        (Native.eq_of_forall (Native.forall_mono hv (bound_within_same w)))) hc
    have hff (c d) (hc : w.bound.array c d) : w.bound.array (f c) (f d) := by
      obtain rfl := heq hc
      have hfg := hfg c c hc
      rwa [← heq hfg] at hfg
    have hsame : s.modifyArray a g = s.modifyArray a f := by
      unfold Store.modifyArray
      rw [modify_congr fun c hc => ?_]
      have hself := h.places.arrays (a := a) ⟨rfl, ha⟩
      rw [hc] at hself
      cases hself with
      | some hself => exact (heq (hfg c c hself)).symm
    rw [hsame]
    refine ⟨rfl, h.kept.trans (ordinary_modifyArray hz f).toFrozenKept, ?_, h.objects, ?_⟩
    · simpa [Store.modifyArray] using h.arrays
    · exact h.firm.modifyArray (h.bound ▸ ⟨rfl, ha⟩) hz (h.bound ▸ hff) hfrozen
  modifyObject := by
    rintro w s _ a _ f g ⟨rfl, h⟩ ⟨rfl, ha⟩ hz hfg hfrozen
    have heq {c d : Container Fields} (hc : w.bound.object c d) : c = d :=
      Container.eq_of_alike (fun _ _ hv => Keyed.eq_of_forall (fun _ _ => Native.eq_of_alike)
        (Native.fields_mono hv (bound_within_same w))) hc
    have hff (c d) (hc : w.bound.object c d) : w.bound.object (f c) (f d) := by
      obtain rfl := heq hc
      have hfg := hfg c c hc
      rwa [← heq hfg] at hfg
    have hsame : s.modifyObject a g = s.modifyObject a f := by
      unfold Store.modifyObject
      rw [modify_congr fun c hc => ?_]
      have hself := h.places.objects (a := a) ⟨rfl, ha⟩
      rw [hc] at hself
      cases hself with
      | some hself => exact (heq (hfg c c hself)).symm
    rw [hsame]
    refine ⟨rfl, h.kept.trans (ordinary_modifyObject hz f).toFrozenKept, h.arrays, ?_, ?_⟩
    · simpa [Store.modifyObject] using h.objects
    · exact h.firm.modifyObject (h.bound ▸ ⟨rfl, ha⟩) hz (h.bound ▸ hff) hfrozen
  freeze := by
    rintro w s _ v v' ⟨rfl, h⟩ hv
    obtain rfl := Native.eq_of_alike (hv.mono (bound_within_same w))
    obtain ⟨firm, hf, -⟩ := h.firm.freeze (h.has hv)
    refine ⟨w, .refl w, rfl, h.kept.trans hf.ordinary.toFrozenKept, ?_, ?_, firm⟩
    · rw [hf.arrays, h.arrays]
    · rw [hf.objects, h.objects]
  newBlock := by
    rintro w s _ a b ⟨rfl, h⟩ hab
    obtain rfl : a = b := optional_eq (fun _ _ h => h) hab
    refine ⟨w, .refl w, ⟨rfl, h.changePlaces ?_ rfl rfl rfl rfl rfl (Nat.le_refl _)⟩, rfl⟩
    exact h.places.addBlock (grows_eq _) h.places.ordered ⟨.nil, hab⟩
  setVariable := by
    rintro w s _ a _ v v' name ⟨rfl, h⟩ rfl hv
    obtain rfl : v = v' := Variable.eq_of_alike (hv.mono (bound_within_same w))
    exact ⟨rfl, h.changePlaces (h.places.setVariable rfl name hv) rfl rfl rfl rfl rfl (Nat.le_refl _)⟩
  remember := by
    rintro w s _ a _ v v' name ⟨rfl, h⟩ rfl hv
    obtain rfl := Native.eq_of_alike (hv.mono (bound_within_same w))
    exact ⟨rfl, h.changePlaces (h.places.remember rfl name hv) rfl rfl rfl rfl rfl (Nat.le_refl _)⟩
  log := by
    rintro w s _ line ⟨rfl, h⟩
    exact ⟨rfl, h.changePlaces { h.places with } rfl rfl rfl rfl rfl (Nat.le_refl _)⟩
  newEvaluation := by
    rintro w s _ sc sc' maxDepth ⟨rfl, h⟩ hsc
    obtain rfl : sc = sc' := Scope.eq_of_alike (fun _ _ => Value.eq_of_alike)
      (hsc.mono (fun _ _ hv => hv.mono (bound_within_same w)) (bound_within_same w))
    refine ⟨w, .refl w, ⟨rfl, h.changePlaces ?_ rfl rfl rfl rfl rfl (Nat.le_refl _)⟩, rfl⟩
    exact h.places.addEvaluation (grows_eq _) Pairing.unique_eq ⟨hsc, rfl, rfl⟩
  newExecution := by
    rintro w s _ sc sc' maxDepth ⟨rfl, h⟩ hsc
    obtain rfl : sc = sc' := Scope.eq_of_alike (fun _ _ => Native.eq_of_alike)
      (hsc.mono (fun _ _ hv => hv.mono (bound_within_same w)) (bound_within_same w))
    refine ⟨w, .refl w, ⟨rfl, h.changePlaces ?_ rfl rfl rfl rfl rfl (Nat.le_refl _)⟩, rfl⟩
    exact h.places.addExecution (grows_eq _) Pairing.unique_eq ⟨⟨hsc, .nil⟩, rfl, rfl⟩
  busy := by
    rintro w s _ a _ ⟨rfl, -⟩ rfl
    rfl
  scriptBusy := by
    rintro w s _ a _ ⟨rfl, -⟩ rfl
    rfl
  countCalls := by
    rintro w s _ a _ f ⟨rfl, h⟩ rfl
    exact ⟨rfl, h.changePlaces (h.places.countCalls rfl f) rfl rfl rfl rfl rfl (Nat.le_refl _)⟩
  countScriptCalls := by
    rintro w s _ a _ f ⟨rfl, h⟩ rfl
    exact ⟨rfl, h.changePlaces (h.places.countScriptCalls rfl f) rfl rfl rfl rfl rfl (Nat.le_refl _)⟩
  session? := by
    rintro w s _ a _ ⟨rfl, h⟩ rfl
    cases hσ : (s.sessions[a]?).filter (·.alive) with
    | none => exact .none
    | some σ =>
      exact .some (h.session (Option.filter_eq_some_iff.1 hσ).1).alike

end Store
end Workbook
