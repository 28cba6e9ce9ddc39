/-
Walks through arrays and objects.

A conversion goes into the arrays and objects that it comes to and carries with it those that it
is in; to come to one of these again is a cycle.  `Walk.Ends` says without any fuel what a walk
ends with.  It has at most one end (`Walk.Ends.unique`), and a function that goes the same way has
found it if its fuel covers the containers of the store (`Walk.Describes.ends`).

A walk fails exactly if a cycle is reached, or a value that it has no result for
(`Walk.Ends.fails_iff`).  For the one direction each container that the walk is in leads to where
it is; for the other, whatever is reached from what was converted was converted inside of more
containers, which rules out that it is one of them.
-/
import Mathlib
import Workbook.Proofs.Coupling.Depth
import Workbook.Proofs.Session.Result

open Relation (ReflTransGen TransGen)

namespace Workbook

/-! ## What is in a container -/

/-- What is in an array or object: its values, and their keys if it is an object. -/
structure Contents where
  keys : Option (List String)
  values : List Native

/-- What is in a value, if it is an array or object. -/
def Native.contents (s : Store) : Native → Option Contents
  | array place => some ⟨none, (s.items place).toList⟩
  | object place => some ⟨some ((s.fields place).map (·.1)), (s.fields place).map (·.2)⟩
  | _ => none

theorem Native.contents_array (s : Store) (place : Nat) :
    (array place).contents s = some ⟨none, (s.items place).toList⟩ :=
  rfl

theorem Native.contents_object (s : Store) (place : Nat) :
    (object place).contents s = some ⟨some ((s.fields place).map (·.1)), (s.fields place).map (·.2)⟩ :=
  rfl

namespace Store

variable {s : Store} {u v : Native}

/-- Whether a container has a value directly in it. -/
def Holds (s : Store) (v u : Native) : Prop :=
  ∃ c, v.contents s = some c ∧ u ∈ c.values

/-- Whether a cycle through arrays and objects is reached from a value. -/
def Looped (s : Store) (v : Native) : Prop :=
  ∃ u, s.Reaches v u ∧ TransGen s.Holds u u

theorem holds_item {place : Nat} {c : Container (Array Native)} (hc : s.arrays[place]? = some c)
    (hu : u ∈ c.content) : s.Holds (.array place) u := by
  refine ⟨_, rfl, ?_⟩
  rw [items_of_some hc]
  exact Array.mem_toList_iff.2 hu

theorem holds_field {place : Nat} {c : Container Fields} (hc : s.objects[place]? = some c)
    {f : String × Native} (hf : f ∈ c.content) : s.Holds (.object place) f.2 := by
  refine ⟨_, rfl, ?_⟩
  rw [fields_of_some hc]
  exact List.mem_map_of_mem hf

/-- A value in a container, as an item or a field of one that is there. -/
theorem Holds.cases (h : s.Holds v u) :
    (∃ place c, v = .array place ∧ s.arrays[place]? = some c ∧ u ∈ c.content) ∨
      ∃ place c f, v = .object place ∧ s.objects[place]? = some c ∧ f ∈ c.content ∧ f.2 = u := by
  obtain ⟨c, hc, hu⟩ := h
  cases v with
  | array place =>
    cases hc
    refine .inl ⟨place, ?_⟩
    unfold items at hu
    cases hp : s.arrays[place]? with
    | none =>
      rw [hp] at hu
      cases hu
    | some d =>
      rw [hp] at hu
      exact ⟨d, rfl, rfl, Array.mem_toList_iff.1 hu⟩
  | object place =>
    cases hc
    obtain ⟨f, hf, rfl⟩ := List.mem_map.1 hu
    refine .inr ⟨place, ?_⟩
    unfold fields at hf
    cases hp : s.objects[place]? with
    | none =>
      rw [hp] at hf
      cases hf
    | some d =>
      rw [hp] at hf
      exact ⟨d, f, rfl, rfl, hf, rfl⟩
  | _ => cases hc

theorem reaches_iff : s.Reaches v u ↔ ReflTransGen s.Holds v u := by
  constructor
  · intro h
    induction h with
    | refl => exact .refl
    | item hc hu _ ih => exact .head (holds_item hc hu) ih
    | field hc hf _ ih => exact .head (holds_field hc hf) ih
  · intro h
    induction h using ReflTransGen.head_induction_on with
    | refl => exact .refl u
    | head hv _ ih =>
      obtain ⟨place, c, rfl, hc, hu⟩ | ⟨place, c, f, rfl, hc, hf, rfl⟩ := hv.cases
      · exact .item hc hu ih
      · exact .field hc hf ih

theorem Holds.mem_places (h : s.Holds v u) : v ∈ s.places := by
  obtain ⟨place, c, rfl, hc, -⟩ | ⟨place, c, f, rfl, hc, -, -⟩ := h.cases
  · exact mem_places_array (Array.getElem?_eq_some_iff.1 hc).1
  · exact mem_places_object (Array.getElem?_eq_some_iff.1 hc).1

theorem Looped.of_holds (hv : s.Holds v u) (h : s.Looped u) : s.Looped v := by
  obtain ⟨n, hn, hloop⟩ := h
  exact ⟨n, reaches_iff.2 (.head hv (reaches_iff.1 hn)), hloop⟩

end Store

/-! ## Collecting -/

/-- What comes of values one after another, inside the containers `outer`, until one fails.  `R`
says what comes of one. -/
inductive Collects {β : Type} (R : List Native → Native → Except Fault β → Prop) :
    List Native → List Native → Except Fault (List β) → Prop
  | nil {outer : List Native} : Collects R [] outer (.ok [])
  | fails {outer : List Native} {v : Native} {vs : List Native} {f : Fault}
      (here : R outer v (.error f)) : Collects R (v :: vs) outer (.error f)
  | later {outer : List Native} {v : Native} {vs : List Native} {b : β} {f : Fault}
      (here : R outer v (.ok b)) (rest : Collects R vs outer (.error f)) :
      Collects R (v :: vs) outer (.error f)
  | cons {outer : List Native} {v : Native} {vs : List Native} {b : β} {bs : List β}
      (here : R outer v (.ok b)) (rest : Collects R vs outer (.ok bs)) :
      Collects R (v :: vs) outer (.ok (b :: bs))

namespace Collects

variable {β : Type} {R S : List Native → Native → Except Fault β → Prop} {outer vs : List Native}

theorem unique {r r' : Except Fault (List β)} (h : Collects R vs outer r)
    (h' : Collects S vs outer r') (same : ∀ v r r', R outer v r → S outer v r' → r = r') :
    r = r' := by
  induction h generalizing r' with
  | nil =>
    cases h'
    rfl
  | fails here =>
    cases h' with
    | fails here' =>
      cases same _ _ _ here here'
      rfl
    | later here' | cons here' => cases same _ _ _ here here'
  | later here _ ih =>
    cases h' with
    | fails here' => cases same _ _ _ here here'
    | later _ rest' =>
      cases ih rest' same
      rfl
    | cons _ rest' => cases ih rest' same
  | cons here _ ih =>
    cases h' with
    | fails here' => cases same _ _ _ here here'
    | later _ rest' => cases ih rest' same
    | cons here' rest' =>
      cases same _ _ _ here here'
      cases ih rest' same
      rfl

theorem of_error {f : Fault} (h : Collects R vs outer (.error f)) :
    ∃ v ∈ vs, R outer v (.error f) := by
  induction vs with
  | nil => cases h
  | cons v vs ih =>
    cases h with
    | fails here => exact ⟨v, List.mem_cons_self, here⟩
    | later _ rest =>
      obtain ⟨u, hu, hr⟩ := ih rest
      exact ⟨u, List.mem_cons_of_mem _ hu, hr⟩

theorem of_ok {bs : List β} (h : Collects R vs outer (.ok bs)) {v : Native} (hv : v ∈ vs) :
    ∃ b, R outer v (.ok b) := by
  induction vs generalizing bs with
  | nil => cases hv
  | cons u vs ih =>
    cases h with
    | cons here rest =>
      obtain rfl | hv := List.mem_cons.1 hv
      · exact ⟨_, here⟩
      · exact ih rest hv

/-- What a function collects. -/
theorem collect {f : Native → Except Fault β} (h : ∀ v ∈ vs, R outer v (f v)) :
    Collects R vs outer (Native.collect f vs) := by
  induction vs with
  | nil => exact .nil
  | cons v vs ih =>
    have here := h v List.mem_cons_self
    have rest := ih fun u hu => h u (List.mem_cons_of_mem _ hu)
    unfold Native.collect
    cases hf : f v with
    | error e =>
      rw [hf] at here
      exact .fails here
    | ok b =>
      rw [hf] at here
      cases hr : Native.collect f vs with
      | error e =>
        rw [hr] at rest
        exact .later here rest
      | ok bs =>
        rw [hr] at rest
        exact .cons here rest

end Collects

/-! ## Walks -/

/-- How a walk comes to its result: from what is no array or object, from a cycle, and from a
container with what is in it. -/
structure Walk (β : Type) where
  scalar : Native → Except Fault β
  cyclic : Fault
  build : Native → Option (List String) → List β → β

namespace Walk

variable {β : Type} {w : Walk β} {s : Store} {outer : List Native} {v u : Native}

/-- The end of a walk through a value, inside the containers `outer`.  A walk without an end would
have no derivation. -/
inductive Ends (w : Walk β) (s : Store) : List Native → Native → Except Fault β → Prop
  | scalar {outer : List Native} {v : Native} {r : Except Fault β} (plain : v.contents s = none)
      (result : w.scalar v = r) : Ends w s outer v r
  | cyclic {outer : List Native} {v : Native} {c : Contents} (there : v.contents s = some c)
      (again : v ∈ outer) : Ends w s outer v (.error w.cyclic)
  | container {outer : List Native} {v : Native} {c : Contents} {parts : Except Fault (List β)}
      {r : Except Fault β} (there : v.contents s = some c) (first : v ∉ outer)
      (inner : Collects (Ends w s) c.values (v :: outer) parts)
      (result : w.build v c.keys <$> parts = r) : Ends w s outer v r

namespace Ends

/-- Induction along a walk. -/
theorem induct {P : ∀ outer v r, w.Ends s outer v r → Prop}
    (scalar : ∀ {outer v r} (plain : v.contents s = none) (result : w.scalar v = r),
      P outer v r (.scalar plain result))
    (cyclic : ∀ {outer v c} (there : v.contents s = some c) (again : v ∈ outer),
      P outer v (.error w.cyclic) (.cyclic there again))
    (container : ∀ {outer v c parts r} (h : w.Ends s outer v r), v.contents s = some c →
      v ∉ outer → Collects (fun outer u r => ∃ h, P outer u r h) c.values (v :: outer) parts →
      w.build v c.keys <$> parts = r → P outer v r h)
    {r : Except Fault β} (h : w.Ends s outer v r) : P outer v r h :=
  h.rec (motive_1 := fun outer v r h => P outer v r h)
    (motive_2 := fun vs outer r _ => Collects (fun outer u r => ∃ h, P outer u r h) vs outer r)
    scalar cyclic
    (fun there first inner result ih => container (.container there first inner result) there first ih result)
    .nil (fun here ih => .fails ⟨here, ih⟩) (fun here _ ih ihrest => .later ⟨here, ih⟩ ihrest)
    fun here _ ih ihrest => .cons ⟨here, ih⟩ ihrest

theorem unique {r r' : Except Fault β} (h : w.Ends s outer v r) (h' : w.Ends s outer v r') :
    r = r' := by
  induction h using induct generalizing r' with
  | scalar plain result =>
    cases h' with
    | scalar _ result' => exact result.symm.trans result'
    | cyclic there | container there =>
      rw [plain] at there
      cases there
  | cyclic there again =>
    cases h' with
    | scalar plain =>
      rw [plain] at there
      cases there
    | cyclic => rfl
    | container _ first => exact absurd again first
  | container _ there first inner result =>
    cases h' with
    | scalar plain =>
      rw [plain] at there
      cases there
    | cyclic _ again => exact absurd again first
    | container there' _ inner' result' =>
      obtain rfl := Option.some.inj (there.symm.trans there')
      have same := inner.unique inner' fun _ _ _ hu hu' => by
        obtain ⟨-, ih⟩ := hu
        exact ih hu'
      rw [← result, ← result', same]

end Ends

/-! ### Functions that walk -/

/-- A function that goes from a container into what is in it as a walk does. -/
structure Describes (w : Walk β) (s : Store)
    (f : Nat → List Native → Native → Except Fault β) : Prop where
  scalar : ∀ {fuel outer v}, v.contents s = none → f fuel outer v = w.scalar v
  cyclic : ∀ {fuel outer v c}, v.contents s = some c → v ∈ outer →
    f (fuel + 1) outer v = .error w.cyclic
  container : ∀ {fuel outer v c}, v.contents s = some c → v ∉ outer →
    f (fuel + 1) outer v =
      w.build v c.keys <$> Native.collect (f fuel (v :: outer)) c.values

/-- With fuel for all containers, the function finds the end of the walk. -/
theorem Describes.ends {f : Nat → List Native → Native → Except Fault β} (h : w.Describes s f)
    {fuel : Nat} (covers : Covers s.places outer fuel) : w.Ends s outer v (f fuel outer v) := by
  induction fuel generalizing outer v with
  | zero => exact absurd rfl covers.ne_zero
  | succ fuel ih =>
    cases there : v.contents s with
    | none => exact .scalar there (h.scalar there).symm
    | some c =>
      by_cases again : v ∈ outer
      · rw [h.cyclic there again]
        exact .cyclic there again
      · rw [h.container there again]
        refine .container there again (.collect fun u hu => ih (covers.cons ?_ again)) rfl
        exact Store.Holds.mem_places ⟨c, there, hu⟩

/-! ### When a walk fails -/

/-- A reason for a fault: a cycle, or a value without a result. -/
def Blames (w : Walk β) (s : Store) (v : Native) (f : Fault) : Prop :=
  f = w.cyclic ∧ s.Looped v ∨
    ∃ u, s.Reaches v u ∧ u.contents s = none ∧ w.scalar u = .error f

theorem Blames.of_holds {f : Fault} (hv : s.Holds v u) (h : w.Blames s u f) : w.Blames s v f := by
  obtain ⟨rfl, hloop⟩ | ⟨n, hn, plain, result⟩ := h
  · exact .inl ⟨rfl, hloop.of_holds hv⟩
  · exact .inr ⟨n, Store.reaches_iff.2 (.head hv (Store.reaches_iff.1 hn)), plain, result⟩

theorem map_eq_ok {α γ ε : Type} {f : α → γ} {x : Except ε α} {b : γ} (h : f <$> x = .ok b) :
    ∃ a, x = .ok a ∧ f a = b := by
  cases x with
  | error e => cases h
  | ok a => exact ⟨a, rfl, Except.ok.inj h⟩

theorem map_eq_error {α γ ε : Type} {f : α → γ} {x : Except ε α} {e : ε} (h : f <$> x = .error e) :
    x = .error e := by
  cases x with
  | error e' =>
    cases h
    rfl
  | ok a => cases h

namespace Ends

/-- A fault has a reason, if each container that the walk is in leads to where it is. -/
theorem blames {r : Except Fault β} (h : w.Ends s outer v r) {f : Fault} (fails : r = .error f)
    (leads : ∀ o ∈ outer, TransGen s.Holds o v) : w.Blames s v f := by
  induction h using induct generalizing f with
  | scalar plain result => exact .inr ⟨_, .refl _, plain, result.trans fails⟩
  | cyclic _ again =>
    cases fails
    exact .inl ⟨rfl, _, .refl _, leads _ again⟩
  | @container outer v c parts r _ there first inner result =>
    obtain rfl := map_eq_error (result.trans fails)
    obtain ⟨u, hu, -, ih⟩ := inner.of_error
    have hv : s.Holds v u := ⟨c, there, hu⟩
    refine (ih rfl fun o ho => ?_).of_holds hv
    obtain rfl | ho := List.mem_cons.1 ho
    · exact .single hv
    · exact (leads o ho).tail hv

/-- What is in a container that has a result has one inside of it. -/
theorem inner {b : β} (h : w.Ends s outer v (.ok b)) (hv : s.Holds v u) :
    v ∉ outer ∧ ∃ b', w.Ends s (v :: outer) u (.ok b') := by
  obtain ⟨c, hc, hu⟩ := hv
  cases h with
  | scalar plain =>
    rw [plain] at hc
    cases hc
  | container there first inner result =>
    rw [hc] at there
    cases there
    obtain ⟨bs, rfl, -⟩ := map_eq_ok result
    exact ⟨first, inner.of_ok hu⟩

/-- So has whatever is reached, inside of more containers. -/
theorem reached {b : β} (h : w.Ends s outer v (.ok b)) (hu : s.Reaches v u) :
    ∃ more b', outer ⊆ more ∧ w.Ends s more u (.ok b') := by
  rw [Store.reaches_iff] at hu
  induction hu using ReflTransGen.head_induction_on generalizing outer b with
  | refl => exact ⟨outer, b, List.Subset.refl _, h⟩
  | head hv _ ih =>
    obtain ⟨-, b', hinner⟩ := h.inner hv
    obtain ⟨more, b'', hsub, hends⟩ := ih hinner
    exact ⟨more, b'', fun o ho => hsub (List.mem_cons_of_mem _ ho), hends⟩

theorem not_looped {b : β} (h : w.Ends s outer v (.ok b)) : ¬ s.Looped v := by
  rintro ⟨u, hu, hloop⟩
  obtain ⟨more, b', -, hends⟩ := h.reached hu
  obtain ⟨n, hn, hback⟩ := TransGen.head'_iff.1 hloop
  obtain ⟨-, b'', hinner⟩ := hends.inner hn
  -- the walk has come back to `u` inside of `u`
  obtain ⟨most, b₃, hsub, hagain⟩ := hinner.reached (Store.reaches_iff.2 hback)
  exact (hagain.inner hn).1 (hsub List.mem_cons_self)

theorem scalar_ok {b : β} (h : w.Ends s outer v (.ok b)) (hu : s.Reaches v u)
    (plain : u.contents s = none) : ∃ b', w.scalar u = .ok b' := by
  obtain ⟨more, b', -, hends⟩ := h.reached hu
  cases hends with
  | scalar _ result => exact ⟨b', result⟩
  | container there =>
    rw [plain] at there
    cases there

/-- A walk fails exactly if there is a reason to. -/
theorem fails_iff {r : Except Fault β} (h : w.Ends s [] v r) :
    (∃ f, r = .error f) ↔ ∃ f, w.Blames s v f := by
  constructor
  · rintro ⟨f, rfl⟩
    exact ⟨f, h.blames rfl fun _ ho => absurd ho List.not_mem_nil⟩
  · rintro ⟨f, hblame⟩
    cases r with
    | error f => exact ⟨f, rfl⟩
    | ok b =>
      obtain ⟨-, hloop⟩ | ⟨u, hu, plain, result⟩ := hblame
      · exact absurd hloop h.not_looped
      · obtain ⟨b', hb⟩ := h.scalar_ok hu plain
        rw [result] at hb
        cases hb

end Ends

end Walk
end Workbook
