/-
Values that go to the other language and back.

A value of formulas is turned into a native one, and what comes of it is converted again.  Which
integers become doubles and which big integers does not show: a scalar comes back as it went
(`Value.Elementary.settled`), since a double holds exactly the integers that it is used for.  So a
value that is made of scalars, lists and mappings comes back as it was, keys in their spelling and
order included, and its containers remember the native ones made for them.

Functions of formulas and errors come back as something else.  But whatever comes back has the
native form that it was converted from, so a second trip changes nothing
(`Engine.roundTrip_again`).  `round_trip_returns` puts both together.
-/
import Workbook.Proofs.Number
import Workbook.Proofs.Walk.Form

open List (Forall₂)

namespace Workbook

/-- The native form of a value, converted to a value again. -/
def Engine.roundTrip (engine : Engine) (v : Value) : Run Value := do
  Run.toValue (← engine.ask (.native v))

/-! ## Scalars -/

namespace Value

/-- A scalar whose native form is converted to it. -/
def Settled (v : Value) : Prop :=
  ∃ n, v.scalar? = some n ∧ ∀ s, n.toValue s = .ok v

theorem settled_integer (k : Int64) : (integer k).Settled := by
  by_cases small : k.toInt.natAbs ≤ Number.exactBound
  · refine ⟨.number (Number.ofInt k.toInt), by rw [scalar?, if_pos small], fun s => ?_⟩
    show Except.ok (Native.ofNumber (Number.ofInt k.toInt)) = .ok (integer k)
    rw [Native.ofNumber_ofInt small, Int64.ofInt_toInt]
  · refine ⟨.big k.toInt, by rw [scalar?, if_neg small], fun s => ?_⟩
    have hfits : Number.fitsWord k.toInt = true :=
      (Number.toInt_ofInt_eq_iff _).1 (by rw [Int64.ofInt_toInt])
    show Except.ok (ofInt k.toInt) = .ok (integer k)
    rw [ofInt, if_pos hfits, Int64.ofInt_toInt]

theorem settled_big {n : Int} (wide : Number.fitsWord n = false) : (big n).Settled := by
  refine ⟨.big n, rfl, fun s => ?_⟩
  show Except.ok (ofInt n) = .ok (big n)
  rw [ofInt, wide, if_neg Bool.false_ne_true]

theorem settled_ofInt (n : Int) : (ofInt n).Settled := by
  unfold ofInt
  cases hfits : Number.fitsWord n with
  | true => exact settled_integer _
  | false => exact settled_big hfits

theorem settled_float {x : Float} {negative : Bool} {m : Nat} {e : Int}
    (finite : Number.exact x = .finite negative m e)
    (fraction : Number.Exact.isWhole m e = false) : (float x).Settled := by
  refine ⟨.number x, rfl, fun s => ?_⟩
  show Except.ok (Native.ofNumber x) = .ok (float x)
  unfold Native.ofNumber
  rw [finite]
  simp only [fraction, Bool.false_eq_true, if_false]

theorem settled_ofNumber (x : Float) : (Native.ofNumber x).Settled := by
  unfold Native.ofNumber
  cases hx : Number.exact x with
  | finite negative m e =>
    simp only
    cases hwhole : Number.Exact.isWhole m e with
    | true => exact settled_ofInt _
    | false => exact settled_float hx hwhole
  | nan => exact ⟨.null, rfl, fun _ => rfl⟩
  | infinite negative => exact ⟨.null, rfl, fun _ => rfl⟩

end Value

/-- What a value is converted to that is no container. -/
theorem Native.toValueIn_settled {s : Store} {fuel : Nat} {outer : List Native} {v : Native}
    {t : Value} (plain : v.contents s = none) (h : v.toValueIn s fuel outer = .ok t) :
    t.Settled := by
  cases v with
  | array place => cases plain
  | object place => cases plain
  | number x =>
    have ht : ofNumber x = t := by
      unfold toValueIn at h
      exact Except.ok.inj h
    exact ht ▸ Value.settled_ofNumber x
  | big n =>
    have ht : Value.ofInt n = t := by
      unfold toValueIn at h
      exact Except.ok.inj h
    exact ht ▸ Value.settled_ofInt n
  | _ =>
    unfold toValueIn at h
    cases h
    exact ⟨_, rfl, fun _ => rfl⟩

/-! ## A second trip -/

/-- A native value that is there has a converted form that is turned into one with the same
converted form. -/
theorem Native.handed_back (e : Engine) {s : Store} {n : Native} {x : Value} (there : s.Contains n)
    (h : n.toValue s = .ok x) : ∃ n', e.native x s = .ok n' s ∧ n'.toValue s = .ok x := by
  cases plain : n.contents s with
  | none =>
    obtain ⟨n', hn', hx⟩ := toValueIn_settled plain h
    exact ⟨n', Engine.native_scalar e hn' s, hx s⟩
  | some c =>
    -- a container is current, since it was converted just now
    refine ⟨n, ?_, h⟩
    cases n with
    | array place =>
      have hc := Array.getElem?_eq_getElem there
      obtain ⟨_, items, -, -, rfl⟩ := toValueIn_array hc h
      refine Engine.native_list_current ?_
      rw [Engine.currentArray_some, hc]
      exact if_pos rfl
    | object place =>
      have hc := Array.getElem?_eq_getElem there
      obtain ⟨_, es, -, -, rfl⟩ := toValueIn_object hc h
      refine Engine.native_mapping_current ?_
      rw [Engine.currentObject_some, hc]
      exact if_pos rfl
    | _ => cases plain

namespace Run

variable {n : Native} {s s' : Store} {x : Value}

theorem toValue_run (h : n.toValue s = .ok x) : toValue n s = .ok x s := by
  show (ofFaulty (n.toValue s) : Run Value) s = _
  rw [h]
  rfl

theorem toValue_eq_ok (h : toValue n s = .ok x s') : s' = s ∧ n.toValue s = .ok x := by
  have h : (ofFaulty (n.toValue s) : Run Value) s = .ok x s' := h
  cases hx : n.toValue s with
  | error f =>
    rw [hx] at h
    cases h
  | ok y =>
    rw [hx] at h
    cases h
    exact ⟨rfl, rfl⟩

end Run

namespace Engine

theorem currentArray_there {s : Store} {o : Option Origin} {n : Native}
    (h : currentArray s o = some n) : s.Contains n := by
  cases o with
  | none => cases h
  | some o =>
    obtain ⟨c, hc, -, rfl⟩ := currentArray_eq_some h
    exact (Array.getElem?_eq_some_iff.1 hc).1

theorem currentObject_there {s : Store} {o : Option Origin} {n : Native}
    (h : currentObject s o = some n) : s.Contains n := by
  cases o with
  | none => cases h
  | some o =>
    obtain ⟨c, hc, -, rfl⟩ := currentObject_eq_some h
    exact (Array.getElem?_eq_some_iff.1 hc).1

/-- The native form of a value is there. -/
theorem native_there {e : Engine} {v : Value} {s s' : Store} {n : Native}
    (h : e.native v s = .ok n s') : s'.Contains n := by
  unfold native at h
  cases v with
  | list items o =>
    obtain ⟨_, _, hget, h⟩ := Run.bind_eq_ok h
    cases hget
    cases hcurrent : currentArray s o with
    | some n' =>
      rw [hcurrent] at h
      cases h
      exact currentArray_there hcurrent
    | none =>
      rw [hcurrent] at h
      obtain ⟨ns, s₁, -, h⟩ := Run.bind_eq_ok h
      cases h
      simp [Store.Contains]
  | mapping entries o =>
    obtain ⟨_, _, hget, h⟩ := Run.bind_eq_ok h
    cases hget
    cases hcurrent : currentObject s o with
    | some n' =>
      rw [hcurrent] at h
      cases h
      exact currentObject_there hcurrent
    | none =>
      rw [hcurrent] at h
      obtain ⟨ns, s₁, -, h⟩ := Run.bind_eq_ok h
      cases h
      simp [Store.Contains]
  | error kind message payload =>
    cases payload with
    | none =>
      cases h
      simp [Store.Contains]
    | some v =>
      obtain ⟨data, s₁, -, h⟩ := Run.bind_eq_ok h
      cases h
      simp [Store.Contains]
  | function f =>
    cases f with
    | native f =>
      cases h
      trivial
    | typed f =>
      cases h
      trivial
  | integer k =>
    cases h
    split <;> trivial
  | _ =>
    cases h
    trivial

/-- What has come back comes back again, as it is and with nothing made on the way. -/
theorem roundTrip_again {fuel : Nat} {v x : Value} {s s' : Store}
    (h : (ofFuel fuel).roundTrip v s = .ok x s') (fuel' : Nat) :
    (ofFuel (fuel' + 1)).roundTrip x s' = .ok x s' := by
  obtain ⟨n, s₁, hn, hx⟩ := Run.bind_eq_ok h
  obtain ⟨rfl, hx⟩ := Run.toValue_eq_ok hx
  cases fuel with
  | zero => cases hn
  | succ fuel =>
    have hn : (ofFuel fuel).native v s = .ok n s' := hn
    obtain ⟨n', hn', hx'⟩ := Native.handed_back (ofFuel fuel') (native_there hn) hx
    have hn' : (ofFuel (fuel' + 1)).ask (.native x) s' = .ok n' s' := hn'
    unfold roundTrip
    rw [Run.bind_run hn']
    exact Run.toValue_run hx'

end Engine

/-! ## What comes back as it was -/

namespace Value

/-- A value made of scalars, lists and mappings that do not come from native ones. -/
inductive Elementary : Value → Prop
  | null : Elementary .null
  | boolean (b : Bool) : Elementary (.boolean b)
  | integer (n : Int64) : Elementary (.integer n)
  | big {n : Int} (wide : Number.fitsWord n = false) : Elementary (.big n)
  | float {x : Float} {negative : Bool} {m : Nat} {e : Int}
      (finite : Number.exact x = .finite negative m e)
      (fraction : Number.Exact.isWhole m e = false) : Elementary (.float x)
  | string (t : String) : Elementary (.string t)
  | date (n : Int) : Elementary (.date n)
  | bytes (b : Bytes) : Elementary (.bytes b)
  | list {items : List Value} (items_elementary : ∀ v ∈ items, Elementary v) :
      Elementary (.list items none)
  | mapping {entries : Entries} (ready : ∀ e ∈ entries, ∃ v, e.2 = .ready v)
      (entries_elementary : ∀ key v, (key, .ready v) ∈ entries → Elementary v)
      (distinct : (entries.map fun e => Text.lower e.1).Nodup) : Elementary (.mapping entries none)

/-- A value with its lazy entries read. -/
inductive ReadAs (s : Store) : Value → Value → Prop
  | scalar {v : Value} (h : v.scalar?.isSome) : ReadAs s v v
  | list {items us : List Value} (items_read : Forall₂ (ReadAs s) items us) :
      ReadAs s (.list items none) (.list us none)
  | mapping {entries : Entries} {vs us : List Value}
      (yielded : Forall₂ (fun e v => s.Yields e.2 v) entries vs)
      (entries_read : Forall₂ (ReadAs s) vs us) :
      ReadAs s (.mapping entries none) (.mapping (Entries.ofPairs (entries.keys.zip us)) none)

variable {s : Store} {t u : Value}

/-- Induction over a value and what it is read as. -/
theorem ReadAs.induct {P : ∀ t u, ReadAs s t u → Prop}
    (scalar : ∀ {v} (h : v.scalar?.isSome), P v v (.scalar h))
    (list : ∀ {items us} (h : ReadAs s (.list items none) (.list us none)),
      Forall₂ (fun v u => ∃ h, P v u h) items us → P (.list items none) (.list us none) h)
    (mapping : ∀ {entries : Entries} {vs us}
      (h : ReadAs s (.mapping entries none)
        (.mapping (Entries.ofPairs (entries.keys.zip us)) none)),
      Forall₂ (fun e v => s.Yields e.2 v) entries vs → Forall₂ (fun v u => ∃ h, P v u h) vs us →
      P (.mapping entries none) (.mapping (Entries.ofPairs (entries.keys.zip us)) none) h)
    (h : t.ReadAs s u) : P t u h :=
  h.rec (motive_1 := fun t u h => P t u h)
    (motive_2 := fun ts us _ => Forall₂ (fun t u => ∃ h, P t u h) ts us)
    scalar (fun inner ih => list (.list inner) ih)
    (fun yielded inner ih => mapping (.mapping yielded inner) yielded ih)
    .nil fun here _ ih ihrest => .cons ⟨here, ih⟩ ihrest

/-- An elementary scalar comes back as it was. -/
theorem Elementary.settled (h : t.Elementary) (scalar : t.scalar?.isSome) : t.Settled := by
  cases h with
  | integer n => exact settled_integer n
  | big wide => exact settled_big wide
  | float finite fraction => exact settled_float finite fraction
  | list | mapping => cases scalar
  | _ => exact ⟨_, rfl, fun _ => rfl⟩

end Value

/-- Entries with distinct keys are all kept. -/
theorem Entries.ofList_eq_ofPairs {es : List (String × Value)}
    (distinct : (es.map fun e => Text.lower e.1).Nodup) :
    Entries.ofList es = Entries.ofPairs es := by
  have hfold (done : List (String × Value))
      (distinct : ((done ++ es).map fun e => Text.lower e.1).Nodup) :
      es.foldl (fun out e => Entries.insert out e.1 (.ready e.2)) (Entries.ofPairs done) =
        Entries.ofPairs (done ++ es) := by
    clear * - distinct
    induction es generalizing done with
    | nil => rw [List.append_nil, List.foldl_nil]
    | cons e es ih =>
      have hnew : ¬ (Entries.ofPairs done).has e.1 := by
        rw [Entries.has_iff]
        rintro ⟨f, hf, hkey⟩
        obtain ⟨d, hd, rfl⟩ := List.mem_map.1 hf
        rw [List.map_append, List.nodup_append] at distinct
        obtain ⟨-, -, apart⟩ := distinct
        exact apart _ (List.mem_map_of_mem hd) _ (List.mem_map_of_mem List.mem_cons_self) hkey
      have hinsert : Entries.insert (Entries.ofPairs done) e.1 (.ready e.2) =
          Entries.ofPairs (done ++ [e]) := by
        unfold Entries.insert Entries.insert?
        rw [if_neg hnew]
        simp [Entries.ofPairs]
      rw [List.foldl_cons, hinsert, ih, List.append_assoc, List.singleton_append]
      rwa [List.append_assoc, List.singleton_append]
  exact hfold [] (by simpa using distinct)

/-- Entries that have all been computed are made of values. -/
theorem Entries.exists_ofPairs {entries : Entries} (ready : ∀ e ∈ entries, ∃ v, e.2 = .ready v) :
    ∃ es, entries = Entries.ofPairs es := by
  induction entries with
  | nil => exact ⟨[], rfl⟩
  | cons e entries ih =>
    obtain ⟨v, hv⟩ := ready e List.mem_cons_self
    obtain ⟨es, rfl⟩ := ih fun f hf => ready f (List.mem_cons_of_mem _ hf)
    exact ⟨(e.1, v) :: es, congrArg (· :: _) (Prod.ext rfl hv)⟩

/-- What holds at some depth of nesting and below holds at one for all members of two lists. -/
theorem exists_bound_forall₂ {α β : Type} {R : Nat → α → β → Prop} {as : List α} {bs : List β}
    (h : Forall₂ (fun a b => ∃ bound, ∀ fuel, bound ≤ fuel → R fuel a b) as bs) :
    ∃ bound, ∀ fuel, bound ≤ fuel → Forall₂ (R fuel) as bs := by
  induction h with
  | nil => exact ⟨0, fun _ _ => .nil⟩
  | cons here _ ih =>
    obtain ⟨b, hb⟩ := here
    obtain ⟨b', hb'⟩ := ih
    exact ⟨max b b', fun fuel hfuel => .cons (hb fuel (by omega)) (hb' fuel (by omega))⟩

/-- What follows one level further out from what holds with enough fuel. -/
theorem exists_bound_add {P Q : Nat → Prop} (k : Nat) (h : ∃ bound, ∀ fuel, bound ≤ fuel → P fuel)
    (step : ∀ fuel, P (fuel + k) → Q (fuel + k + 1)) : ∃ bound, ∀ fuel, bound ≤ fuel → Q fuel := by
  obtain ⟨bound, hbound⟩ := h
  refine ⟨bound + k + 1, fun fuel hfuel => ?_⟩
  obtain ⟨fuel, rfl⟩ : ∃ f, fuel = f + k + 1 := ⟨fuel - k - 1, by omega⟩
  exact step fuel (hbound (fuel + k) (by omega))

/-- The data of several values, converted. -/
theorem Walk.foldAll_eq_ok {β : Type} {w : Walk β} {ds : List Data} {bs : List β}
    (h : Forall₂ (fun b d => w.fold d = .ok b) bs ds) : w.foldAll ds = .ok bs := by
  induction h with
  | nil => rfl
  | cons here _ ih =>
    unfold foldAll
    rw [here, ih]
    rfl

/-- A value that is elementary when it has been read has a native form that is converted to it. -/
theorem Value.ReadAs.gives {s : Store} {t u : Value} (h : t.ReadAs s u)
    (elementary : u.Elementary) : ∃ bound, ∀ fuel, bound ≤ fuel →
      (Engine.ofFuel fuel).Gives s t (fun d => Walk.bare.fold d = .ok u) := by
  induction h using induct with
  | @scalar v scalar =>
    obtain ⟨n, hn, hback⟩ := elementary.settled scalar
    refine exists_bound_add 0 ⟨0, fun _ _ => trivial⟩ fun fuel _ => ?_
    have hfold : Value.bare <$> n.toValue .empty = Walk.bare.scalar n :=
      (Walk.bare_describes .empty).scalar (contents_of_scalar hn .empty)
    refine Engine.gives_scalar hn (hfold.symm.trans ?_)
    rw [hback]
    exact congrArg Except.ok (bare_of_scalar scalar)
  | @list items us _ inner =>
    cases elementary with
    | list items_elementary =>
      have hitems := forall₂_imp_mem inner fun v _ u hu h => by
        obtain ⟨-, ih⟩ := h
        exact ih (items_elementary u hu)
      refine exists_bound_add 0 (exists_bound_forall₂ hitems) fun fuel hall => ?_
      refine Engine.gives_list hall fun ds hds => ?_
      unfold Walk.fold
      rw [Walk.foldAll_eq_ok hds]
      rfl
  | @mapping entries vs us _ yielded inner =>
    cases elementary with
    | mapping ready entries_elementary distinct =>
      have hlength : entries.keys.length = us.length := by
        rw [Entries.keys, List.length_map, yielded.length_eq, inner.length_eq]
      have hvalues (u : Value) (hu : u ∈ us) : u.Elementary := by
        rw [← List.map_snd_zip (Nat.le_of_eq hlength.symm)] at hu
        obtain ⟨e, he, rfl⟩ := List.mem_map.1 hu
        exact entries_elementary e.1 e.2 (List.mem_map_of_mem he)
      have hgives := forall₂_imp_mem inner fun v _ u hu h => by
        obtain ⟨-, ih⟩ := h
        exact ih (hvalues u hu)
      refine exists_bound_add 1 (exists_bound_forall₂ hgives) fun fuel hall => ?_
      refine Engine.gives_mapping yielded hall fun ds hds => ?_
      unfold Walk.fold
      rw [Walk.foldAll_eq_ok hds, ← Entries.ofList_eq_ofPairs]
      · rfl
      · rw [Entries.ofPairs, List.map_map] at distinct
        exact distinct

/-- Nothing is left to read in an elementary value. -/
theorem Value.Elementary.readAs {t : Value} (h : t.Elementary) (s : Store) : t.ReadAs s t := by
  induction h with
  | list _ ih => exact .list (List.forall₂_same.2 ih)
  | mapping ready _ _ ih =>
    obtain ⟨es, rfl⟩ := Entries.exists_ofPairs ready
    have hkeys : (Entries.ofPairs es).keys = es.map (·.1) := by
      rw [Entries.keys, Entries.ofPairs, List.map_map]
      rfl
    have yielded : Forall₂ (fun e v => s.Yields e.2 v) (Entries.ofPairs es) (es.map (·.2)) := by
      rw [Entries.ofPairs, List.forall₂_map_left_iff, List.forall₂_map_right_iff]
      exact List.forall₂_same.2 fun _ _ => .ready
    have entries_read : Forall₂ (ReadAs s) (es.map (·.2)) (es.map (·.2)) := by
      refine List.forall₂_same.2 fun v hv => ?_
      obtain ⟨e, he, rfl⟩ := List.mem_map.1 hv
      exact ih e.1 e.2 (List.mem_map_of_mem he)
    have hread := ReadAs.mapping yielded entries_read
    rwa [hkeys, ← List.zip_of_prod rfl rfl] at hread
  | _ => exact .scalar rfl

/-! ## What has not been modified -/

namespace Store

/-- Whether a value that is a container has not been modified on the way from one store to
another. -/
def Unmodified (s s' : Store) : Native → Prop
  | .array place => ∃ c c', s.arrays[place]? = some c ∧ s'.arrays[place]? = some c' ∧
      c'.version = c.version
  | .object place => ∃ c c', s.objects[place]? = some c ∧ s'.objects[place]? = some c' ∧
      c'.version = c.version
  | _ => True

variable {s s' : Store} {v : Native}

theorem Unmodified.there (h : s.Unmodified s' v) : s'.Contains v := by
  cases v with
  | array place =>
    obtain ⟨_, c', -, hc', -⟩ := h
    exact (Array.getElem?_eq_some_iff.1 hc').1
  | object place =>
    obtain ⟨_, c', -, hc', -⟩ := h
    exact (Array.getElem?_eq_some_iff.1 hc').1
  | _ => trivial

/-- A container that has not been modified holds what it held. -/
theorem Unmodified.contents_eq (h : s.Unmodified s' v) (later : s.Follows s') :
    v.contents s' = v.contents s := by
  cases v with
  | array place =>
    obtain ⟨c, c', hc, hc', hversion⟩ := h
    obtain ⟨c'', hc'', -, hcontent⟩ := later.arrays place c hc
    obtain rfl : c' = c'' := Option.some.inj (hc'.symm.trans hc'')
    rw [Native.contents_array, Native.contents_array, items_of_some hc, items_of_some hc',
      hcontent hversion]
  | object place =>
    obtain ⟨c, c', hc, hc', hversion⟩ := h
    obtain ⟨c'', hc'', -, hcontent⟩ := later.objects place c hc
    obtain rfl : c' = c'' := Option.some.inj (hc'.symm.trans hc'')
    rw [Native.contents_object, Native.contents_object, fields_of_some hc, fields_of_some hc',
      hcontent hversion]
  | _ => rfl

/-- What held data holds data still if nothing that it leads to has been modified. -/
theorem Unfolds.bears {d : Data} {ps : List Native} (h : s.Unfolds v d ps) (later : s.Follows s')
    (same : ∀ u, s.Reaches v u → s.Unmodified s' u) : s'.Bears v fun _ => True := by
  induction h using Unfolds.induct with
  | @scalar v plain =>
    have hplain := (same v (.refl v)).contents_eq later
    exact bears_scalar (hplain.trans plain) trivial
  | @container v c ds ps _ there inner =>
    have hv := same v (.refl v)
    have hall : s'.BearsAll c.values fun _ => True := by
      refine bearsAll_of_forall fun u hu => ?_
      obtain ⟨_, _, -, -, ih⟩ := inner.of_mem hu
      have hvu : s.Holds v u := ⟨c, there, hu⟩
      exact ih fun w hw => same w (reaches_iff.2 (.head hvu (reaches_iff.1 hw)))
    exact bears_container hv.there ((hv.contents_eq later).trans there) hall fun _ _ => trivial

end Store

namespace Value

/-- A value of which no container that it came from has been modified, nor any container inside of
one. -/
inductive Intact (s : Store) : Value → Prop
  | scalar {v : Value} (h : v.scalar?.isSome) : Intact s v
  | function (f : TypedFunction) : Intact s (.function (.typed f))
  | message (kind message : String) : Intact s (.error kind message none)
  | error {kind message : String} {payload : Value} (h : Intact s payload) :
      Intact s (.error kind message (some payload))
  | list {items : List Value} (items_intact : ∀ v ∈ items, Intact s v) :
      Intact s (.list items none)
  | mapping {entries : Entries} {vs : List Value}
      (yielded : Forall₂ (fun e v => s.Yields e.2 v) entries vs)
      (entries_intact : ∀ v ∈ vs, Intact s v) : Intact s (.mapping entries none)
  | converted {s₀ : Store} {n : Native} {v : Value} (h : n.toValue s₀ = .ok v)
      (later : s₀.Follows s) (same : ∀ u, s₀.Reaches n u → s₀.Unmodified s u) : Intact s v

end Value

/-- What is reached in a store in which all containers are there. -/
theorem Store.Closed.reaches {s : Store} (closed : s.Closed) {v u : Native} (hv : s.Contains v)
    (h : s.Reaches v u) : s.Contains u := by
  induction h with
  | refl => exact hv
  | item hc hu _ ih => exact ih (closed.arrays _ _ hc _ hu)
  | field hc hf _ ih => exact ih (closed.objects _ _ hc _ hf)

/-- What has just been converted is intact. -/
theorem Value.Intact.of_toValue {s : Store} (closed : s.Closed) {n : Native} (there : s.Contains n)
    {v : Value} (h : n.toValue s = .ok v) : v.Intact s := by
  refine .converted h (.refl s) fun u hu => ?_
  have hthere := closed.reaches there hu
  cases u with
  | array place =>
    have hc := Array.getElem?_eq_getElem hthere
    exact ⟨_, _, hc, hc, rfl⟩
  | object place =>
    have hc := Array.getElem?_eq_getElem hthere
    exact ⟨_, _, hc, hc, rfl⟩
  | _ => trivial

namespace Engine

variable {s : Store} {fuel : Nat}

/-- A value that was converted from containers which have not been modified is turned back. -/
theorem gives_converted {s₀ : Store} {n : Native} {v : Value} (h : n.toValue s₀ = .ok v)
    (later : s₀.Follows s) (same : ∀ u, s₀.Reaches n u → s₀.Unmodified s u) :
    (ofFuel (fuel + 1)).Gives s v fun _ => True := by
  cases plain : n.contents s₀ with
  | none =>
    obtain ⟨n', hn', -⟩ := Native.toValueIn_settled plain h
    exact gives_scalar hn' trivial
  | some c =>
    intro s₁ hs₁
    obtain ⟨d, ps, hd⟩ := (Native.toValue_ends s₀ n).unfolds h
    refine ⟨n, s₁, ?_, .refl s₁, (hd.bears later same).grows hs₁.grows⟩
    have hn := same n (.refl n)
    show (ofFuel fuel).native v s₁ = .ok n s₁
    cases n with
    | array place =>
      obtain ⟨c, c', hc, hc', hversion⟩ := hn
      obtain ⟨_, items, -, -, rfl⟩ := Native.toValueIn_array hc h
      refine native_list_current ?_
      rw [currentArray_some, hs₁.grows.arrays place c' hc']
      exact if_pos hversion
    | object place =>
      obtain ⟨c, c', hc, hc', hversion⟩ := hn
      obtain ⟨_, es, -, -, rfl⟩ := Native.toValueIn_object hc h
      refine native_mapping_current ?_
      rw [currentObject_some, hs₁.grows.objects place c' hc']
      exact if_pos hversion
    | _ => cases plain

end Engine

/-- What has not been modified has a native form from which no cycle is reached. -/
theorem Value.Intact.gives {s : Store} {t : Value} (h : t.Intact s) :
    ∃ bound, ∀ fuel, bound ≤ fuel → (Engine.ofFuel fuel).Gives s t fun _ => True := by
  have succ {v : Value} (h : ∀ fuel, (Engine.ofFuel (fuel + 1)).Gives s v fun _ => True) :
      ∃ bound, ∀ fuel, bound ≤ fuel → (Engine.ofFuel fuel).Gives s v fun _ => True :=
    exists_bound_add 0 ⟨0, fun _ _ => trivial⟩ fun fuel _ => h fuel
  have all {vs : List Value} (h : ∀ v ∈ vs, ∃ bound, ∀ fuel, bound ≤ fuel →
      (Engine.ofFuel fuel).Gives s v fun _ => True) : ∃ bound, ∀ fuel, bound ≤ fuel →
      Forall₂ (fun v (_ : Value) => (Engine.ofFuel fuel).Gives s v fun _ => True) vs vs :=
    exists_bound_forall₂ (List.forall₂_same.2 h)
  induction h with
  | scalar h =>
    obtain ⟨n, hn⟩ := Option.isSome_iff_exists.1 h
    exact succ fun fuel => Engine.gives_scalar hn trivial
  | function f => exact succ fun fuel => Engine.gives_function f
  | message kind message => exact succ fun fuel => Engine.gives_message kind message
  | converted h later same => exact succ fun fuel => Engine.gives_converted h later same
  | error _ ih => exact exists_bound_add 0 ih fun fuel here => Engine.gives_error _ _ here
  | list _ ih =>
    refine exists_bound_add 0 (all ih) fun fuel here => ?_
    exact Engine.gives_list (R := fun _ _ => True) here fun _ _ => trivial
  | mapping yielded _ ih =>
    refine exists_bound_add 1 (all ih) fun fuel here => ?_
    exact Engine.gives_mapping (R := fun _ _ => True) yielded here fun _ _ => trivial

/-! ## Round trips -/

/-- A native form that holds data is converted. -/
theorem Engine.Gives.roundTrip {e : Engine} {s : Store} {t : Value} {P : Data → Prop}
    (h : e.Gives s t P) : ∃ n x s' d ps, e.roundTrip t s = .ok x s' ∧ n.toValue s' = .ok x ∧
      s'.Unfolds n d ps ∧ P d := by
  obtain ⟨n, s', hn, -, d, ps, hd, -, hP⟩ := h s (.refl s)
  cases hx : n.toValue s' with
  | error f => exact absurd ((Native.toValue_error_iff s' n f).1 hx).2 hd.not_looped
  | ok x =>
    refine ⟨n, x, s', d, ps, ?_, hx, hd, hP⟩
    unfold Engine.roundTrip
    rw [Run.bind_run hn]
    exact Run.toValue_run hx

theorem Value.ReadAs.returns {s : Store} {t u : Value} (h : t.ReadAs s u)
    (elementary : u.Elementary) : ∃ bound, ∀ fuel, bound ≤ fuel → ∃ x s',
      (Engine.ofFuel fuel).roundTrip t s = .ok x s' ∧ x.bare = u := by
  obtain ⟨bound, hbound⟩ := h.gives elementary
  refine ⟨bound, fun fuel hfuel => ?_⟩
  obtain ⟨n, x, s', d, ps, hrun, hx, hd, hfold⟩ := (hbound fuel hfuel).roundTrip
  refine ⟨x, s', hrun, ?_⟩
  obtain ⟨hresult, -, -⟩ := hd.results
  rw [hx, hfold] at hresult
  exact Except.ok.inj hresult

/-- A value that is made of scalars, lists and mappings and does not come from native containers
goes to the other language and comes back as it was; lazy entries are read on the way.  A value
that no modification has spoiled comes back as well, and whatever has come back comes back again
just as it is. -/
theorem round_trip_returns :
    (∀ t : Value, t.Elementary → ∀ s, ∃ bound, ∀ fuel, bound ≤ fuel → ∃ x s',
      (Engine.ofFuel fuel).roundTrip t s = .ok x s' ∧ x.bare = t) ∧
    (∀ (s : Store) (t u : Value), t.ReadAs s u → u.Elementary → ∃ bound, ∀ fuel, bound ≤ fuel →
      ∃ x s', (Engine.ofFuel fuel).roundTrip t s = .ok x s' ∧ x.bare = u) ∧
    (∀ (s : Store) (t : Value), t.Intact s → ∃ bound, ∀ fuel, bound ≤ fuel → ∃ x s',
      (Engine.ofFuel fuel).roundTrip t s = .ok x s') ∧
    ∀ (fuel fuel' : Nat) (t x : Value) (s s' : Store),
      (Engine.ofFuel fuel).roundTrip t s = .ok x s' →
      (Engine.ofFuel (fuel' + 1)).roundTrip x s' = .ok x s' := by
  refine ⟨fun t ht s => (ht.readAs s).returns ht, fun s t u h hu => h.returns hu,
    fun s t h => ?_, fun fuel fuel' t x s s' h => Engine.roundTrip_again h fuel'⟩
  obtain ⟨bound, hbound⟩ := h.gives
  refine ⟨bound, fun fuel hfuel => ?_⟩
  obtain ⟨n, x, s', d, ps, hrun, -⟩ := (hbound fuel hfuel).roundTrip
  exact ⟨x, s', hrun⟩

/-! ### A table and an error -/

/-- Rows of integers around what doubles hold exactly, and a fraction. -/
def tableOfNumbers : Value :=
  .mapping
    [("Rows", .ready <| .list
      [.list [.integer 0x1fffffffffffff, .integer 0x20000000000001, .big (2 ^ 63)] none,
        .list [.float (Float.ofBits 0x3fe0000000000000), .null] none] none)] none

theorem tableOfNumbers_elementary : tableOfNumbers.Elementary := by
  have half : Number.exact (Float.ofBits 0x3fe0000000000000) = .finite false (2 ^ 52) (-53) := rfl
  have integers : (Value.list
      [.integer 0x1fffffffffffff, .integer 0x20000000000001, .big (2 ^ 63)] none).Elementary := by
    refine .list fun v hv => ?_
    obtain rfl | rfl | rfl : v = .integer 0x1fffffffffffff ∨ v = .integer 0x20000000000001 ∨
      v = .big (2 ^ 63) := by simpa using hv
    · exact .integer _
    · exact .integer _
    · exact .big rfl
  have others : (Value.list [.float (Float.ofBits 0x3fe0000000000000), .null] none).Elementary := by
    refine .list fun v hv => ?_
    obtain rfl | rfl : v = .float (Float.ofBits 0x3fe0000000000000) ∨ v = .null := by
      simpa using hv
    · exact .float half rfl
    · exact .null
  refine .mapping (fun e he => ?_) (fun key v hv => ?_) (List.nodup_singleton _)
  · obtain rfl := List.mem_singleton.1 he
    exact ⟨_, rfl⟩
  · cases List.mem_singleton.1 hv
    refine .list fun v hv => ?_
    obtain rfl | rfl := List.mem_pair.1 hv
    · exact integers
    · exact others

/-- A store with an array in an array and the table put off. -/
def tablePutOff : Store :=
  { nestedArrays with thunks := #[.pending (.value tableOfNumbers)] }

/-- An error with an array that was converted as its payload. -/
def nestedError : Value :=
  .error "runtime" "no such row" (some nestedSnapshot)

/-- The table comes back, also if it has to be read first, and so does the error. -/
theorem table_and_error_return :
    tableOfNumbers.Elementary ∧
    (∃ fuel x s', (Engine.ofFuel fuel).roundTrip tableOfNumbers tablePutOff = .ok x s' ∧
      x.bare = tableOfNumbers) ∧
    (Value.mapping [("Table", .lazy 0)] none).ReadAs tablePutOff
      (.mapping [("Table", .ready tableOfNumbers)] none) ∧
    (∃ fuel x s', (Engine.ofFuel fuel).roundTrip (.mapping [("Table", .lazy 0)] none) tablePutOff =
      .ok x s' ∧ x.bare = .mapping [("Table", .ready tableOfNumbers)] none) ∧
    nestedError.Intact tablePutOff ∧
    ∃ fuel x s', (Engine.ofFuel fuel).roundTrip nestedError tablePutOff = .ok x s' ∧
      (Engine.ofFuel 1).roundTrip x s' = .ok x s' := by
  obtain ⟨elementary, read, intact, again⟩ := round_trip_returns
  have hread : (Value.mapping [("Table", .lazy 0)] none).ReadAs tablePutOff
      (.mapping [("Table", .ready tableOfNumbers)] none) := by
    have hthunk : tablePutOff.Yields (.lazy 0) tableOfNumbers := .pending rfl
    exact .mapping (.cons hthunk .nil) (.cons (tableOfNumbers_elementary.readAs _) .nil)
  have houter : (Value.mapping [("Table", .ready tableOfNumbers)] none).Elementary := by
    refine .mapping (fun e he => ?_) (fun key v hv => ?_) (List.nodup_singleton _)
    · obtain rfl := List.mem_singleton.1 he
      exact ⟨_, rfl⟩
    · cases List.mem_singleton.1 hv
      exact tableOfNumbers_elementary
  have hclosed : tablePutOff.Closed := ⟨nestedArrays_closed.arrays, nestedArrays_closed.objects⟩
  have hintact : nestedError.Intact tablePutOff :=
    .error (.of_toValue hclosed (n := .array 1) Nat.one_lt_two rfl)
  obtain ⟨bound, htable⟩ := elementary _ tableOfNumbers_elementary tablePutOff
  obtain ⟨bound', hlazy⟩ := read _ _ _ hread houter
  obtain ⟨bound'', herror⟩ := intact _ _ hintact
  obtain ⟨x, s', hrun⟩ := herror _ (Nat.le_refl _)
  exact ⟨tableOfNumbers_elementary, ⟨_, htable _ (Nat.le_refl _)⟩, hread,
    ⟨_, hlazy _ (Nat.le_refl _)⟩, hintact, _, x, s', hrun, again _ 0 _ _ _ _ hrun⟩

end Workbook
