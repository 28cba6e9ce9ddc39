/-
How deep containers are nested.

Conversions and freezing go down through arrays and objects with a fuel that depends on how many
of them a store has.  No chain of different containers is longer than that, so more fuel makes no
difference: `toValue_eq` and its siblings say so, and `freeze_eq` does for freezing.  Stores that
match place by place may therefore have any number of other containers (`Matches.reads`).
-/
import Workbook.Proofs.Coupling.Freezing
import Mathlib.Data.List.Perm.Subperm
import Mathlib.Logic.Relation

open List (Forall₂)

namespace Workbook

/-! ## Chains -/

/-- Fuel that is enough to go on from different places, of those that there are. -/
structure Covers {α : Type} (places outer : List α) (fuel : Nat) : Prop where
  nodup : outer.Nodup
  subset : outer ⊆ places
  lt : places.length < fuel + outer.length

namespace Covers

variable {α : Type} {places outer : List α} {fuel : Nat}

theorem start (h : places.length < fuel) : Covers places [] fuel :=
  ⟨List.nodup_nil, List.nil_subset _, h⟩

/-- Different places are not more than there are. -/
theorem ne_zero (h : Covers places outer fuel) : fuel ≠ 0 := by
  have hle := (h.nodup.subperm h.subset).length_le
  have hlt := h.lt
  omega

theorem cons (h : Covers places outer (fuel + 1)) {a : α} (ha : a ∈ places) (hout : a ∉ outer) :
    Covers places (a :: outer) fuel where
  nodup := List.nodup_cons.2 ⟨hout, h.nodup⟩
  subset := List.cons_subset.2 ⟨ha, h.subset⟩
  lt := by
    have hlt := h.lt
    rw [List.length_cons]
    omega

end Covers

namespace Store

/-- The containers of a store. -/
def places (s : Store) : List Native :=
  (List.range s.arrays.size).map .array ++ (List.range s.objects.size).map .object

theorem length_places (s : Store) : s.places.length = s.containers := by
  simp [places, containers]

variable {s : Store} {place : Nat}

theorem mem_places_array (h : place < s.arrays.size) : .array place ∈ s.places :=
  List.mem_append_left _ (List.mem_map_of_mem (List.mem_range.2 h))

theorem mem_places_object (h : place < s.objects.size) : .object place ∈ s.places :=
  List.mem_append_right _ (List.mem_map_of_mem (List.mem_range.2 h))

theorem items_of_some {c : Container (Array Native)} (h : s.arrays[place]? = some c) :
    s.items place = c.content := by
  unfold items
  rw [h]

theorem fields_of_some {c : Container Fields} (h : s.objects[place]? = some c) :
    s.fields place = c.content := by
  unfold fields
  rw [h]

theorem items_of_size_le (h : s.arrays.size ≤ place) : s.items place = #[] := by
  unfold items
  rw [Array.getElem?_eq_none h]

theorem fields_of_size_le (h : s.objects.size ≤ place) : s.fields place = [] := by
  unfold fields
  rw [Array.getElem?_eq_none h]

end Store

/-! ## Conversions -/

namespace Native

variable {s : Store} {v : Native}

theorem array_not_mem {outer : List Native} {place : Nat}
    (h : ¬ outer.any (strictEquals (array place)) = true) : array place ∉ outer :=
  fun hm => h (List.any_eq_true.2 ⟨_, hm, beq_self_eq_true place⟩)

theorem object_not_mem {outer : List Native} {place : Nat}
    (h : ¬ outer.any (strictEquals (object place)) = true) : object place ∉ outer :=
  fun hm => h (List.any_eq_true.2 ⟨_, hm, beq_self_eq_true place⟩)

/-- Functions that agree collect the same. -/
theorem collect_congr {α β : Type} {f g : α → Except Fault β} {as : List α}
    (h : ∀ a ∈ as, f a = g a) : collect f as = collect g as := by
  induction as with
  | nil => rfl
  | cons a as ih =>
    rw [collect, collect, h a List.mem_cons_self, ih fun b hb => h b (List.mem_cons_of_mem _ hb)]

/-- Collecting from an array, each item of which is inside the array. -/
theorem collect_items {β : Type} {f g : Native → Except Fault β} {place : Nat}
    (h : place < s.arrays.size → ∀ v, f v = g v) :
    collect f (s.items place).toList = collect g (s.items place).toList := by
  by_cases hp : place < s.arrays.size
  · exact collect_congr fun v _ => h hp v
  · rw [Store.items_of_size_le (Nat.le_of_not_lt hp)]
    rfl

/-- Collecting from an object, each field of which is inside the object. -/
theorem collect_fields {β : Type} {f g : String × Native → Except Fault β} {place : Nat}
    (h : place < s.objects.size → ∀ e, f e = g e) :
    collect f (s.fields place) = collect g (s.fields place) := by
  by_cases hp : place < s.objects.size
  · exact collect_congr fun e _ => h hp e
  · rw [Store.fields_of_size_le (Nat.le_of_not_lt hp)]
    rfl

theorem toValueIn_eq {fuel fuel' : Nat} {outer : List Native} (h : Covers s.places outer fuel)
    (h' : Covers s.places outer fuel') : v.toValueIn s fuel outer = v.toValueIn s fuel' outer := by
  induction fuel generalizing fuel' outer v with
  | zero => exact absurd rfl h.ne_zero
  | succ fuel ih =>
    cases fuel' with
    | zero => exact absurd rfl h'.ne_zero
    | succ fuel' =>
      cases v with
      | array place =>
        unfold toValueIn
        split
        · rfl
        · rename_i hout
          have hout := array_not_mem hout
          rw [collect_items fun hp v => ih (h.cons (Store.mem_places_array hp) hout)
            (h'.cons (Store.mem_places_array hp) hout)]
      | object place =>
        unfold toValueIn
        split
        · rfl
        · rename_i hout
          have hout := object_not_mem hout
          rw [collect_fields fun hp e => congrArg ((e.1, ·) <$> ·)
            (ih (v := e.2) (h.cons (Store.mem_places_object hp) hout)
              (h'.cons (Store.mem_places_object hp) hout))]
      | _ => rfl

theorem toJsonIn_eq {fuel fuel' : Nat} {outer : List Native} (h : Covers s.places outer fuel)
    (h' : Covers s.places outer fuel') : v.toJsonIn s fuel outer = v.toJsonIn s fuel' outer := by
  induction fuel generalizing fuel' outer v with
  | zero => exact absurd rfl h.ne_zero
  | succ fuel ih =>
    cases fuel' with
    | zero => exact absurd rfl h'.ne_zero
    | succ fuel' =>
      cases v with
      | array place =>
        unfold toJsonIn
        split
        · rfl
        · rename_i hout
          have hout := array_not_mem hout
          rw [collect_items fun hp v => ih (h.cons (Store.mem_places_array hp) hout)
            (h'.cons (Store.mem_places_array hp) hout)]
      | object place =>
        unfold toJsonIn
        split
        · rfl
        · rename_i hout
          have hout := object_not_mem hout
          rw [collect_fields fun hp e => congrArg ((e.1, ·) <$> ·)
            (ih (v := e.2) (h.cons (Store.mem_places_object hp) hout)
              (h'.cons (Store.mem_places_object hp) hout))]
      | _ => rfl

theorem textIn_eq {fuel fuel' : Nat} {outer : List Nat}
    (h : Covers (List.range s.arrays.size) outer fuel)
    (h' : Covers (List.range s.arrays.size) outer fuel') :
    v.textIn s fuel outer = v.textIn s fuel' outer := by
  induction fuel generalizing fuel' outer v with
  | zero => exact absurd rfl h.ne_zero
  | succ fuel ih =>
    cases fuel' with
    | zero => exact absurd rfl h'.ne_zero
    | succ fuel' =>
      cases v with
      | array place =>
        unfold textIn
        split
        · rfl
        · rename_i hout
          by_cases hp : place < s.arrays.size
          · have hout : place ∉ outer := by simpa using hout
            have hp := List.mem_range.2 hp
            simp only [ih (h.cons hp hout) (h'.cons hp hout)]
          · rw [Store.items_of_size_le (Nat.le_of_not_lt hp)]
            rfl
      | _ => rfl

/-! ### Numbers -/

/-- An array and its only item. -/
def Leads (s : Store) (v w : Native) : Prop :=
  ∃ place, v = array place ∧ (s.items place).toList = [w]

/-- What leads to itself is no number. -/
theorem numberIn_of_cycle (fuel : Nat) (h : Relation.TransGen (Leads s) v v) :
    v.numberIn s fuel = Number.nan := by
  induction fuel generalizing v with
  | zero =>
    obtain ⟨w, ⟨place, rfl, -⟩, -⟩ := Relation.TransGen.head'_iff.1 h
    rfl
  | succ fuel ih =>
    obtain ⟨w, ⟨place, rfl, hitems⟩, hw⟩ := Relation.TransGen.head'_iff.1 h
    unfold numberIn
    simp only [hitems]
    exact ih (Relation.TransGen.tail' hw ⟨place, rfl, hitems⟩)

theorem numberIn_eq {fuel fuel' : Nat} {outer : List Nat}
    (h : Covers (List.range s.arrays.size) outer fuel)
    (h' : Covers (List.range s.arrays.size) outer fuel')
    (hv : ∀ place ∈ outer, Relation.TransGen (Leads s) (array place) v) :
    v.numberIn s fuel = v.numberIn s fuel' := by
  induction fuel generalizing fuel' outer v with
  | zero => exact absurd rfl h.ne_zero
  | succ fuel ih =>
    cases fuel' with
    | zero => exact absurd rfl h'.ne_zero
    | succ fuel' =>
      cases v with
      | array place =>
        by_cases hout : place ∈ outer
        · rw [numberIn_of_cycle _ (hv place hout), numberIn_of_cycle _ (hv place hout)]
        · unfold numberIn
          split
          · rfl
          · rename_i w hitems
            have hp : place ∈ List.range s.arrays.size := by
              refine List.mem_range.2 (Nat.lt_of_not_le fun hle => ?_)
              rw [Store.items_of_size_le hle] at hitems
              cases hitems
            have hleads : Leads s (array place) w := ⟨place, rfl, hitems⟩
            refine ih (h.cons hp hout) (h'.cons hp hout) fun other ho => ?_
            obtain rfl | ho := List.mem_cons.1 ho
            · exact .single hleads
            · exact (hv other ho).tail hleads
          · rfl
      | _ => rfl

/-! ### Enough fuel -/

theorem toValue_eq {fuel : Nat} (h : s.containers < fuel) : v.toValue s = v.toValueIn s fuel [] :=
  toValueIn_eq (.start (by rw [s.length_places]; exact Nat.lt_succ_self _))
    (.start (by rwa [s.length_places]))

theorem toJson_eq {fuel : Nat} (h : s.containers < fuel) : v.toJson s = v.toJsonIn s fuel [] :=
  toJsonIn_eq (.start (by rw [s.length_places]; exact Nat.lt_succ_self _))
    (.start (by rwa [s.length_places]))

theorem text_eq_textIn {fuel : Nat} (h : s.arrays.size < fuel) : v.text s = v.textIn s fuel [] :=
  textIn_eq (.start (by simp)) (.start (by simpa))

theorem toNumber_eq {fuel : Nat} (h : s.arrays.size < fuel) : v.toNumber s = v.numberIn s fuel :=
  numberIn_eq (.start (by simp)) (.start (by simpa)) (by simp)

end Native

/-! ## Freezing -/

namespace Store

/-- Freezing one value leaves one container fewer to freeze, unless there is nothing to do. -/
theorem freezeOne_lt (s : Store) (v : Native) :
    s.freezeOne v = (s, []) ∨ (s.freezeOne v).1.unfrozen < s.unfrozen := by
  obtain h | ⟨place, c, -, hc, hf, h⟩ | ⟨place, c, -, hc, hf, h⟩ := s.freezeOne_shape v
  · exact .inl h
  · rw [h]
    exact .inr (Nat.add_lt_add_right (countP_modify_lt hc (by simpa using hf) rfl) _)
  · rw [h]
    exact .inr (Nat.add_lt_add_left (countP_modify_lt hc (by simpa using hf) rfl) _)

theorem freezeAll_cons (fuel : Nat) (s : Store) (v : Native) (vs : List Native) :
    freezeAll (fuel + 1) s (v :: vs) =
      freezeAll (fuel + 1) (freezeAll fuel (s.freezeOne v).1 (s.freezeOne v).2) vs :=
  rfl

theorem freezeOne_run (s : Store) (v : Native) :
    ∃ arrays objects, (s.freezeOne v).1 = { s with arrays := arrays, objects := objects } ∧
      arrays.size = s.arrays.size ∧ objects.size = s.objects.size := by
  unfold freezeOne
  split
  · split
    · split
      · exact ⟨_, _, rfl, rfl, rfl⟩
      · exact ⟨_, _, rfl, Array.size_modify, rfl⟩
    · exact ⟨_, _, rfl, rfl, rfl⟩
  · split
    · split
      · exact ⟨_, _, rfl, rfl, rfl⟩
      · exact ⟨_, _, rfl, rfl, Array.size_modify⟩
    · exact ⟨_, _, rfl, rfl, rfl⟩
  · exact ⟨_, _, rfl, rfl, rfl⟩

theorem unfrozen_freezeAll_le (fuel : Nat) (s : Store) (vs : List Native) :
    (freezeAll fuel s vs).unfrozen ≤ s.unfrozen := by
  induction fuel generalizing s vs with
  | zero => exact Nat.le_refl _
  | succ fuel ih =>
    induction vs generalizing s with
    | nil => exact Nat.le_refl _
    | cons v vs ihv =>
      rw [freezeAll_cons]
      refine Nat.le_trans (ihv _) ?_
      obtain h | h := s.freezeOne_lt v
      · exact Nat.le_of_eq (by rw [h, freezeAll_nil])
      · exact Nat.le_trans (ih _ _) (Nat.le_of_lt h)

theorem freezeAll_eq {fuel fuel' : Nat} {s : Store} (vs : List Native) (h : s.unfrozen < fuel)
    (h' : s.unfrozen < fuel') : freezeAll fuel s vs = freezeAll fuel' s vs := by
  induction fuel generalizing fuel' s vs with
  | zero => exact absurd h (Nat.not_lt_zero _)
  | succ fuel ih =>
    cases fuel' with
    | zero => exact absurd h' (Nat.not_lt_zero _)
    | succ fuel' =>
      induction vs generalizing s with
      | nil => rfl
      | cons v vs ihv =>
        rw [freezeAll_cons, freezeAll_cons]
        obtain hv | hv := s.freezeOne_lt v
        · rw [hv, freezeAll_nil, freezeAll_nil]
          exact ihv h h'
        · have hle := unfrozen_freezeAll_le fuel' (s.freezeOne v).1 (s.freezeOne v).2
          rw [@ih fuel' (s.freezeOne v).1 (s.freezeOne v).2 (by omega) (by omega)]
          exact ihv (by omega) (by omega)

theorem freeze_eq {s : Store} {fuel : Nat} (h : s.containers < fuel) (v : Native) :
    s.freeze v = freezeAll fuel s [v] :=
  freezeAll_eq _ (Nat.lt_succ_of_le s.unfrozen_le) (Nat.lt_of_le_of_lt s.unfrozen_le h)

/-- Freezing changes containers and nothing else, and none are made. -/
theorem freezeAll_run (fuel : Nat) (s : Store) (vs : List Native) :
    ∃ arrays objects, freezeAll fuel s vs = { s with arrays := arrays, objects := objects } ∧
      arrays.size = s.arrays.size ∧ objects.size = s.objects.size := by
  induction fuel generalizing s vs with
  | zero => exact ⟨_, _, rfl, rfl, rfl⟩
  | succ fuel ih =>
    induction vs generalizing s with
    | nil => exact ⟨_, _, rfl, rfl, rfl⟩
    | cons v vs ihv =>
      rw [freezeAll_cons]
      obtain ⟨xs₁, ys₁, h₁, hx₁, hy₁⟩ := s.freezeOne_run v
      rw [h₁]
      obtain ⟨xs₂, ys₂, h₂, hx₂, hy₂⟩ := ih { s with arrays := xs₁, objects := ys₁ }
        (s.freezeOne v).2
      rw [h₂]
      obtain ⟨xs₃, ys₃, h₃, hx₃, hy₃⟩ := ihv { s with arrays := xs₂, objects := ys₂ }
      exact ⟨xs₃, ys₃, h₃, hx₃.trans (hx₂.trans hx₁), hy₃.trans (hy₂.trans hy₁)⟩

theorem freeze_run (s : Store) (v : Native) :
    ∃ arrays objects, s.freeze v = { s with arrays := arrays, objects := objects } ∧
      arrays.size = s.arrays.size ∧ objects.size = s.objects.size :=
  freezeAll_run _ s [v]

end Store

/-! ## Matching stores -/

namespace Store.Matches

variable {p : Pairing} {s t : Store} (h : Store.Matches p s t)
include h

theorem contains_eq {outer outer' : List Nat} (ho : Forall₂ p.arrays outer outer') {a b : Nat}
    (hab : p.arrays a b) : outer.contains a = outer'.contains b := by
  induction ho with
  | nil => rfl
  | cons hx _ ih =>
    rw [List.contains_cons, List.contains_cons, ih, beq_eq_decide, beq_eq_decide,
      decide_eq_decide.2 (h.oneToOne.arrays hab hx)]

/-- Texts with as much fuel are the same. -/
theorem textIn (fuel : Nat) {outer outer' : List Nat} {v w : Native}
    (ho : Forall₂ p.arrays outer outer') (hv : Native.Alike p v w) :
    v.textIn s fuel outer = w.textIn t fuel outer' := by
  induction fuel generalizing outer outer' v w with
  | zero =>
    cases hv with
    | bytes hb => cases hb; rfl
    | function hf => simp only [Native.textIn, Callable.native_name_eq hf]
    | _ => rfl
  | succ fuel ih =>
    cases hv with
    | bytes hb => cases hb; rfl
    | function hf => simp only [Native.textIn, Callable.native_name_eq hf]
    | array hab =>
      unfold Native.textIn
      rw [h.contains_eq ho hab]
      split
      · rfl
      · refine congrArg (String.intercalate ",") ?_
        have hitems := h.items hab
        generalize (s.items _).toList = vs at hitems ⊢
        generalize (t.items _).toList = ws at hitems ⊢
        induction hitems with
        | nil => rfl
        | cons hx _ ihs =>
          rw [List.map_cons, List.map_cons, ihs, hx.isNullish_eq, ih (.cons hab ho) hx]
    | _ => rfl

theorem numberIn (fuel : Nat) {v w : Native} (hv : Native.Alike p v w) :
    v.numberIn s fuel = w.numberIn t fuel := by
  induction fuel generalizing v w with
  | zero => cases hv <;> rfl
  | succ fuel ih =>
    cases hv with
    | array hab =>
      unfold Native.numberIn
      have hitems := h.items hab
      generalize (s.items _).toList = vs at hitems ⊢
      generalize (t.items _).toList = ws at hitems ⊢
      cases hitems with
      | nil => rfl
      | cons hx hrest =>
        cases hrest with
        | nil => exact ih hx
        | cons _ _ => rfl
    | _ => rfl

theorem toJsonIn (fuel : Nat) {outer outer' : List Native} {v w : Native}
    (ho : Forall₂ (Native.Alike p) outer outer') (hv : Native.Alike p v w) :
    ExceptAlike Eq (v.toJsonIn s fuel outer) (w.toJsonIn t fuel outer') := by
  induction fuel generalizing outer outer' v w with
  | zero =>
    cases hv with
    | bytes hb => cases hb; exact .ok rfl
    | array _ => exact .error _
    | object _ => exact .error _
    | big _ => exact .error _
    | _ => exact .ok rfl
  | succ fuel ih =>
    cases hv with
    | bytes hb => cases hb; exact .ok rfl
    | big _ => exact .error _
    | array hab =>
      unfold Native.toJsonIn
      rw [h.any_strictEquals ho (.array hab)]
      refine ExceptAlike.ite (.error _) ?_
      refine (collect_alike (h.items hab) fun _ _ hx => ih (.cons (.array hab) ho) hx).bind ?_
      intro js js' hjs
      rw [List.forall₂_eq_eq_eq] at hjs
      exact .ok (by rw [hjs])
    | object hab =>
      unfold Native.toJsonIn
      rw [h.any_strictEquals ho (.object hab)]
      refine ExceptAlike.ite (.error _) ?_
      refine (collect_alike (T := Eq) (h.fields hab) fun (k, v) (k', v') hx => ?_).bind ?_
      · cases hx with
        | mk k hx => exact (ih (.cons (.object hab) ho) hx).map fun _ _ hj => by rw [hj]
      · intro js js' hjs
        rw [List.forall₂_eq_eq_eq] at hjs
        exact .ok (by rw [hjs])
    | _ => exact .ok rfl

omit h in
/-- Fuel that is enough in two stores. -/
theorem fuel_lt (m n : Nat) : m < m + n + 1 ∧ n < m + n + 1 := by
  omega

/-- Programs cannot tell matching stores apart. -/
theorem reads : Store.Alike p s t where
  items := h.items
  fields := h.fields
  text hv := by
    obtain ⟨hs, ht⟩ := fuel_lt s.arrays.size t.arrays.size
    rw [Native.text_eq_textIn hs, Native.text_eq_textIn ht]
    exact h.textIn _ .nil hv
  number hv := by
    obtain ⟨hs, ht⟩ := fuel_lt s.arrays.size t.arrays.size
    rw [Native.toNumber_eq hs, Native.toNumber_eq ht]
    exact h.numberIn _ hv
  value hv := by
    obtain ⟨hs, ht⟩ := fuel_lt s.containers t.containers
    rw [Native.toValue_eq hs, Native.toValue_eq ht]
    exact h.toValueIn _ .nil hv
  json hv := by
    obtain ⟨hs, ht⟩ := fuel_lt s.containers t.containers
    rw [Native.toJson_eq hs, Native.toJson_eq ht]
    exact ExceptAlike.eq_of_alike (fun _ _ => id) (h.toJsonIn _ .nil hv)
  currentArray := h.currentArray
  currentObject := h.currentObject
  resolve := h.resolve?
  declared := h.declared
  evaluation hab := optional_imp (fun _ _ he => he.scope) (h.evaluations hab)
  execution hab := optional_imp (fun _ _ he => he.toAlike) (h.executions hab)
  oneToOne := h.oneToOne

/-- Freezing one value in each: what is in it is alike, and the stores still match. -/
theorem freezeOne {v w : Native} (hv : Native.Alike p v w) :
    Store.Matches p (s.freezeOne v).1 (t.freezeOne w).1 ∧
      Forall₂ (Native.Alike p) (s.freezeOne v).2 (t.freezeOne w).2 := by
  cases hv with
  | @array a b hab =>
    have hc := h.arrays hab
    cases hs : s.arrays[a]? with
    | none =>
      cases ht : t.arrays[b]? with
      | none => simpa [Store.freezeOne, hs, ht] using h
      | some d => rw [hs, ht] at hc; cases hc
    | some c =>
      cases ht : t.arrays[b]? with
      | none => rw [hs, ht] at hc; cases hc
      | some d =>
        rw [hs, ht] at hc
        obtain hc | hc := hc
        cases hf : c.frozen with
        | true => simpa [Store.freezeOne, hs, ht, hf, ← hc.frozen] using h
        | false =>
          rw [freezeOne_array hs hf, freezeOne_array ht (hc.frozen ▸ hf)]
          exact ⟨h.modifyArray hab fun _ _ hd => ⟨hd.content, hd.version, rfl⟩, hc.content⟩
  | @object a b hab =>
    have hc := h.objects hab
    cases hs : s.objects[a]? with
    | none =>
      cases ht : t.objects[b]? with
      | none => simpa [Store.freezeOne, hs, ht] using h
      | some d => rw [hs, ht] at hc; cases hc
    | some c =>
      cases ht : t.objects[b]? with
      | none => rw [hs, ht] at hc; cases hc
      | some d =>
        rw [hs, ht] at hc
        obtain hc | hc := hc
        cases hf : c.frozen with
        | true => simpa [Store.freezeOne, hs, ht, hf, ← hc.frozen] using h
        | false =>
          rw [freezeOne_object hs hf, freezeOne_object ht (hc.frozen ▸ hf)]
          exact ⟨h.modifyObject hab fun _ _ hd => ⟨hd.content, hd.version, rfl⟩,
            Keyed.values_alike hc.content⟩
  | _ => exact ⟨h, .nil⟩

omit h in
theorem freezeAll (fuel : Nat) {s t : Store} {vs ws : List Native} (h : Store.Matches p s t)
    (hv : Forall₂ (Native.Alike p) vs ws) :
    Store.Matches p (Store.freezeAll fuel s vs) (Store.freezeAll fuel t ws) := by
  induction fuel generalizing s t vs ws with
  | zero => exact h
  | succ fuel ih =>
    induction hv generalizing s t with
    | nil => exact h
    | cons hx _ ihs =>
      rw [Store.freezeAll_cons, Store.freezeAll_cons]
      obtain ⟨hone, hinner⟩ := h.freezeOne hx
      exact ihs (ih hone hinner)

theorem freeze {v w : Native} (hv : Native.Alike p v w) :
    Store.Matches p (s.freeze v) (t.freeze w) := by
  obtain ⟨hs, ht⟩ := fuel_lt s.containers t.containers
  rw [Store.freeze_eq hs, Store.freeze_eq ht]
  exact freezeAll _ h (.cons hv .nil)

end Store.Matches
end Workbook
