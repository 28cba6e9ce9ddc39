/-
Freezing reaches everything.

A store is `Sound` if every array and object that anything in it refers to is there.  New
containers are put where nothing refers to yet, so what they are given later cannot change
anything that was converted, frozen or kept before.

`Store.freeze` goes depth first through the containers that are not frozen yet, and its fuel
is their number.  What it leaves behind is frozen all the way down: a value whose contents
were frozen with it, in a store where every frozen container contained only what was frozen
(`freeze_tight`).  While the search is under way some frozen containers hold values that are
still to come; `FrozenAll` with a weaker predicate is the invariant for that.
-/
import Workbook.Proofs.Coupling.Matching
import Workbook.Proofs.Custody

namespace Workbook

/-! ## References -/

/-- A lazy entry whose value, if it has one, is alike itself. -/
def Thunk.Valid (p : Pairing) : Thunk → Prop
  | .pending (.value v) | .done v => Value.Alike p v v
  | .pending _ => True

namespace Store

/-- Every place paired with itself, of arrays and objects those that are there. -/
def bound (s : Store) : Pairing :=
  { Pairing.same with
    arrays := fun a b => a = b ∧ a < s.arrays.size
    objects := fun a b => a = b ∧ a < s.objects.size }

theorem bound_within_same (s : Store) : s.bound.Within .same :=
  { Pairing.Within.refl Pairing.same with
    arrays := And.left
    objects := And.left }

theorem bound_within {s s' : Store} (arrays : s.arrays.size ≤ s'.arrays.size)
    (objects : s.objects.size ≤ s'.objects.size) : s.bound.Within s'.bound :=
  { Pairing.Within.refl Pairing.same with
    arrays := fun h => ⟨h.1, Nat.lt_of_lt_of_le h.2 arrays⟩
    objects := fun h => ⟨h.1, Nat.lt_of_lt_of_le h.2 objects⟩ }

theorem bound_congr {s s' : Store} (arrays : s'.arrays.size = s.arrays.size)
    (objects : s'.objects.size = s.objects.size) : s'.bound = s.bound := by
  unfold bound
  rw [arrays, objects]

theorem unique_bounded (n : Nat) : Pairing.Unique fun a b => a = b ∧ a < n := by
  rintro a _ c _ ⟨rfl, -⟩ ⟨rfl, -⟩
  rfl

/-- The containers that are there are one more after one was added. -/
theorem grows_bounded (n : Nat) :
    Grows (fun a b => a = b ∧ a < n) (fun a b => a = b ∧ a < n + 1) n n where
  old h := ⟨h.1, Nat.lt_succ_of_lt h.2⟩
  both h := by rw [h.1]
  only h hne := ⟨h.1, Nat.lt_of_le_of_ne (Nat.le_of_lt_succ h.2) hne⟩

theorem grows_eq (n : Nat) : Grows Eq Eq n n where
  old h := h
  both h := by rw [h]
  only h _ := h

/-- What is alike itself under pairs that are no others than equals cannot be told apart
from itself. -/
theorem Matches.alike {p : Pairing} {s : Store} (h : Store.Matches p s s) (hp : p.Within .same) :
    Store.Alike p s s where
  items := h.items
  fields := h.fields
  text hv := by rw [Native.eq_of_alike (hv.mono hp)]
  number hv := by rw [Native.eq_of_alike (hv.mono hp)]
  value hv := h.toValueIn _ .nil hv
  json hv := by rw [Native.eq_of_alike (hv.mono hp)]
  currentArray := h.currentArray
  currentObject := h.currentObject
  resolve := h.resolve?
  declared := h.declared
  evaluation hab := optional_imp (fun _ _ he => he.scope) (h.evaluations hab)
  execution hab := optional_imp (fun _ _ he => he.toAlike) (h.executions hab)
  oneToOne := h.oneToOne

/-! ## Sound stores -/

/-- A store in which every reference to an array or object leads to one. -/
structure Sound (s : Store) : Prop where
  places : Store.Matches s.bound s s
  thunks : ∀ {t : Nat} {thunk : Thunk}, s.thunks[t]? = some thunk → thunk.Valid s.bound
  sessions : ∀ {place : Nat} {σ : Session}, s.sessions[place]? = some σ → σ.Valid s.bound

theorem sound_empty : empty.Sound where
  places :=
    { arrays := fun h => absurd h.2 (Nat.not_lt_zero _)
      objects := fun h => absurd h.2 (Nat.not_lt_zero _)
      blocks := fun _ => .none
      evaluations := fun _ => .none
      executions := fun _ => .none
      ordered := by rintro a _ c _ rfl rfl; rfl
      uniqueEvaluations := Pairing.unique_eq
      uniqueExecutions := Pairing.unique_eq
      oneToOne := ⟨unique_bounded _, unique_bounded _, Pairing.unique_eq⟩ }
  thunks h := nomatch h
  sessions h := nomatch h

end Store

namespace Store

/-! ## Frozen values -/

/-- Whether a value is frozen, if it can be. -/
def Sealed (s : Store) : Native → Prop
  | .array place => ∃ c, s.arrays[place]? = some c ∧ c.frozen = true
  | .object place => ∃ c, s.objects[place]? = some c ∧ c.frozen = true
  | _ => True

/-- All that is in a frozen container satisfies `P`. -/
structure FrozenAll (s : Store) (P : Native → Prop) : Prop where
  arrays : ∀ (place : Nat) (c : Container (Array Native)), s.arrays[place]? = some c →
    c.frozen = true → ∀ v ∈ c.content, P v
  objects : ∀ (place : Nat) (c : Container Fields), s.objects[place]? = some c →
    c.frozen = true → ∀ f ∈ c.content, P f.2

/-- A value whose arrays and objects are there. -/
abbrev Has (s : Store) (v : Native) : Prop :=
  Native.Alike s.bound v v

theorem Sealed.mono {s s' : Store} (h : s.FrozenKept s') {v : Native} (hv : s.Sealed v) :
    s'.Sealed v := by
  cases v with
  | array place =>
    obtain ⟨c, hc, hf⟩ := hv
    exact ⟨c, h.arrays place c hc hf, hf⟩
  | object place =>
    obtain ⟨c, hc, hf⟩ := hv
    exact ⟨c, h.objects place c hc hf, hf⟩
  | _ => trivial

theorem FrozenAll.imp {s : Store} {P Q : Native → Prop} (h : s.FrozenAll P)
    (hPQ : ∀ v, P v → Q v) : s.FrozenAll Q :=
  ⟨fun place c hc hf v hv => hPQ v (h.arrays place c hc hf v hv),
    fun place c hc hf f hm => hPQ _ (h.objects place c hc hf f hm)⟩

/-! ## The measure -/

/-- How many containers are not frozen. -/
def unfrozen (s : Store) : Nat :=
  s.arrays.countP (!·.frozen) + s.objects.countP (!·.frozen)

theorem unfrozen_le (s : Store) : s.unfrozen ≤ s.containers :=
  Nat.add_le_add Array.countP_le_size Array.countP_le_size

/-- Fewer items satisfy `p` after one that did no longer does. -/
theorem countP_modify_lt {α : Type} {p : α → Bool} {xs : Array α} {i : Nat} {a : α} {f : α → α}
    (h : xs[i]? = some a) (ha : p a = true) (hf : p (f a) = false) :
    (xs.modify i f).countP p < xs.countP p := by
  obtain ⟨hi, rfl⟩ := Array.getElem?_eq_some_iff.1 h
  have hset : xs.modify i f = xs.set i (f xs[i]) hi := by
    refine Array.ext_getElem? fun j => ?_
    rw [Array.getElem?_modify, Array.getElem?_set]
    split
    · rename_i hij
      subst hij
      rw [h, Option.map_some]
    · rfl
  have hle := Array.boole_getElem_le_countP (p := p) hi
  rw [hset, Array.countP_set, ha, hf]
  simp only [ha, if_true, Bool.false_eq_true, if_false] at hle ⊢
  omega

/-! ## What freezing does -/

/-- A store with more containers frozen, and otherwise the same. -/
structure Freezes (s s' : Store) : Prop where
  ordinary : s.Ordinary s'
  arrays : s'.arrays.size = s.arrays.size
  objects : s'.objects.size = s.objects.size
  places : Store.Matches s.bound s s → Store.Matches s.bound s' s'
  unfrozen : s'.unfrozen ≤ s.unfrozen

namespace Freezes

variable {s t u : Store}

theorem refl (s : Store) : s.Freezes s :=
  ⟨.refl s, rfl, rfl, id, Nat.le_refl _⟩

theorem bound (h : s.Freezes t) : t.bound = s.bound :=
  bound_congr h.arrays h.objects

theorem has (h : s.Freezes t) {v : Native} (hv : s.Has v) : t.Has v := by
  unfold Has
  rw [h.bound]
  exact hv

theorem trans (h : s.Freezes t) (h' : t.Freezes u) : s.Freezes u where
  ordinary := h.ordinary.trans h'.ordinary
  arrays := h'.arrays.trans h.arrays
  objects := h'.objects.trans h.objects
  places hs := h.bound ▸ h'.places (h.bound ▸ h.places hs)
  unfrozen := Nat.le_trans h'.unfrozen h.unfrozen

end Freezes

/-- Freezing one value: it was frozen already, or one container fewer is not frozen now and
its contents are still to come. -/
theorem freezeOne_cases {s : Store} (hs : Store.Matches s.bound s s) {v : Native} (hv : s.Has v) :
    (s.Sealed v ∧ s.freezeOne v = (s, [])) ∨
      ∃ s' inner, s.freezeOne v = (s', inner) ∧ s.Freezes s' ∧ s'.unfrozen < s.unfrozen ∧
        s'.Sealed v ∧ (∀ u ∈ inner, s.Has u) ∧
        ∀ P, s.FrozenAll P → (∀ u ∈ inner, P u) → s'.FrozenAll P := by
  cases v with
  | array place =>
    obtain ⟨c, hc⟩ : ∃ c, s.arrays[place]? = some c := by
      cases hv with
      | array h => exact ⟨_, Array.getElem?_eq_getElem h.2⟩
    cases hf : c.frozen with
    | true =>
      refine .inl ⟨⟨c, hc, hf⟩, freezeOne_array_of_frozen fun c' hc' => ?_⟩
      rw [hc] at hc'
      cases hc'
      exact hf
    | false =>
      have hplace : s.bound.arrays place place :=
        ⟨rfl, (Array.getElem?_eq_some_iff.1 hc).1⟩
      have hlt : (s.modifyArray place .sealed).unfrozen < s.unfrozen :=
        Nat.add_lt_add_right (countP_modify_lt hc (by simp [hf]) (by simp [Container.sealed])) _
      refine .inr ⟨_, _, freezeOne_array hc hf, ?_, hlt, ?_, ?_, fun P hP hin => ?_⟩
      · exact ⟨ordinary_modifyArray (by simp [arrayFrozen, hc, hf]) _, by simp [modifyArray], rfl,
          fun hs => hs.modifyArray hplace fun _ _ h => ⟨h.content, h.version, rfl⟩,
          Nat.le_of_lt hlt⟩
      · exact ⟨c.sealed, by simp [modifyArray, Array.getElem?_modify, hc], rfl⟩
      · intro u hu
        have hitems := hs.items hplace
        unfold Store.items at hitems
        rw [hc] at hitems
        exact List.forall₂_same.1 hitems u hu
      · refine ⟨fun other d hd hdf u hu => ?_, hP.objects⟩
        rw [modifyArray, Array.getElem?_modify] at hd
        split at hd
        · rename_i heq
          subst heq
          rw [hc] at hd
          cases hd
          exact hin u (Array.mem_toList_iff.2 hu)
        · exact hP.arrays other d hd hdf u hu
  | object place =>
    obtain ⟨c, hc⟩ : ∃ c, s.objects[place]? = some c := by
      cases hv with
      | object h => exact ⟨_, Array.getElem?_eq_getElem h.2⟩
    cases hf : c.frozen with
    | true =>
      refine .inl ⟨⟨c, hc, hf⟩, freezeOne_object_of_frozen fun c' hc' => ?_⟩
      rw [hc] at hc'
      cases hc'
      exact hf
    | false =>
      have hplace : s.bound.objects place place :=
        ⟨rfl, (Array.getElem?_eq_some_iff.1 hc).1⟩
      have hlt : (s.modifyObject place .sealed).unfrozen < s.unfrozen :=
        Nat.add_lt_add_left (countP_modify_lt hc (by simp [hf]) (by simp [Container.sealed])) _
      refine .inr ⟨_, _, freezeOne_object hc hf, ?_, hlt, ?_, ?_, fun P hP hin => ?_⟩
      · exact ⟨ordinary_modifyObject (by simp [objectFrozen, hc, hf]) _, rfl, by simp [modifyObject],
          fun hs => hs.modifyObject hplace fun _ _ h => ⟨h.content, h.version, rfl⟩,
          Nat.le_of_lt hlt⟩
      · exact ⟨c.sealed, by simp [modifyObject, Array.getElem?_modify, hc], rfl⟩
      · intro u hu
        have hfields := hs.fields hplace
        unfold Store.fields at hfields
        rw [hc] at hfields
        exact List.forall₂_same.1 (Keyed.values_alike hfields) u hu
      · refine ⟨hP.arrays, fun other d hd hdf f hm => ?_⟩
        rw [modifyObject, Array.getElem?_modify] at hd
        split at hd
        · rename_i heq
          subst heq
          rw [hc] at hd
          cases hd
          exact hin f.2 (List.mem_map_of_mem hm)
        · exact hP.objects other d hd hdf f hm
  | _ => exact .inl ⟨trivial, rfl⟩

/-- Freezing values with enough fuel: they are frozen, and what is in frozen containers is
frozen unless it is yet to come. -/
theorem freezeAll_frozen (fuel : Nat) (P : Native → Prop) (s : Store) (vs : List Native)
    (hfuel : s.unfrozen < fuel) (hs : Store.Matches s.bound s s) (hvs : ∀ v ∈ vs, s.Has v)
    (hP : s.FrozenAll fun v => s.Sealed v ∨ P v ∨ v ∈ vs) :
    s.Freezes (freezeAll fuel s vs) ∧
      ((freezeAll fuel s vs).FrozenAll fun v => (freezeAll fuel s vs).Sealed v ∨ P v) ∧
      ∀ v ∈ vs, (freezeAll fuel s vs).Sealed v := by
  induction fuel generalizing P s vs with
  | zero => exact absurd hfuel (Nat.not_lt_zero _)
  | succ fuel ih =>
    unfold freezeAll
    induction vs generalizing s with
    | nil => exact ⟨.refl s, hP.imp fun v h => by simpa using h, by simp⟩
    | cons v vs ihv =>
      rw [List.foldl_cons]
      -- what comes of `v` and of all that is in it
      obtain ⟨hstep, hsealed, hin⟩ : s.Freezes (freezeAll fuel (s.freezeOne v).1 (s.freezeOne v).2) ∧
          (freezeAll fuel (s.freezeOne v).1 (s.freezeOne v).2).Sealed v ∧
          (freezeAll fuel (s.freezeOne v).1 (s.freezeOne v).2).FrozenAll fun u =>
            (freezeAll fuel (s.freezeOne v).1 (s.freezeOne v).2).Sealed u ∨ P u ∨ u ∈ vs := by
        obtain ⟨hv, heq⟩ | ⟨s₁, inner, heq, h₁, hlt, hv, hinner, hall⟩ :=
          freezeOne_cases hs (hvs v List.mem_cons_self)
        · rw [heq, freezeAll_nil]
          refine ⟨.refl s, hv, hP.imp fun u hu => ?_⟩
          obtain hu | hu | hu := hu
          · exact .inl hu
          · exact .inr (.inl hu)
          · obtain rfl | hu := List.mem_cons.1 hu
            · exact .inl hv
            · exact .inr (.inr hu)
        · rw [heq]
          obtain ⟨h₂, hall₂, hin₂⟩ := ih (fun u => P u ∨ u ∈ vs) s₁ inner (by omega)
            (h₁.bound ▸ h₁.places hs) (fun u hu => h₁.has (hinner u hu)) (by
              refine hall _ (hP.imp fun u hu => ?_) fun u hu => .inr (.inr hu)
              obtain hu | hu | hu := hu
              · exact .inl (hu.mono h₁.ordinary.toFrozenKept)
              · exact .inr (.inl (.inl hu))
              · obtain rfl | hu := List.mem_cons.1 hu
                · exact .inl hv
                · exact .inr (.inl (.inr hu)))
          exact ⟨h₁.trans h₂, hv.mono h₂.ordinary.toFrozenKept, hall₂⟩
      obtain ⟨hrest, hall, hvs'⟩ := ihv _ (Nat.lt_of_le_of_lt hstep.unfrozen hfuel)
        (hstep.bound ▸ hstep.places hs)
        (fun u hu => hstep.has (hvs u (List.mem_cons_of_mem _ hu))) hin
      refine ⟨hstep.trans hrest, hall, fun u hu => ?_⟩
      obtain rfl | hu := List.mem_cons.1 hu
      · exact hsealed.mono hrest.ordinary.toFrozenKept
      · exact hvs' u hu

/-- In a store where frozen containers contain what is frozen, they do so after a value was
frozen, and the value is frozen. -/
theorem freeze_tight {s : Store} (hs : Store.Matches s.bound s s) (hall : s.FrozenAll s.Sealed)
    {v : Native} (hv : s.Has v) :
    s.Freezes (s.freeze v) ∧ (s.freeze v).FrozenAll (s.freeze v).Sealed ∧ (s.freeze v).Sealed v := by
  obtain ⟨hf, hall, hsealed⟩ := freezeAll_frozen (s.containers + 1) (fun _ => False) s [v]
    (Nat.lt_succ_of_le s.unfrozen_le) hs (by simpa using hv) (hall.imp fun _ => .inl)
  exact ⟨hf, hall.imp fun u hu => hu.resolve_right id, hsealed v List.mem_cons_self⟩

end Store
end Workbook
