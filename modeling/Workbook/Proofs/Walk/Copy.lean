/-
Copies through JSON.

Scripts copy data by writing it as JSON and reading that again.  Data that is made of what JSON can hold
(`Data.Portable`) is read back as it was, in containers of its own, and only the sign of a zero is lost:
an integer up to the bound is written as an integer, any other number as a double
(`Run.nativeOfJson_number`).

What JSON does not have is null among items and left out among properties.  This is said of each
container that is reached from a value with JSON (`Store.toJson_reached`).
-/
import Workbook.Proofs.Json

open List (Forall₂)

namespace Workbook

/-! ## Numbers -/

namespace Number

/-- A double, without the sign of zero. -/
def plusZero (x : Float) : Float :=
  if x == 0 then 0 else x

theorem plusZero_of_value {x : Float} {n : Int} (bound : n.natAbs ≤ exactBound)
    (hx : value? x = some (n : ℚ)) : plusZero x = ofInt n := by
  have hzero : value? 0 = some 0 := value?_ofInt (n := 0) (by decide)
  have hcompare := (compare?_eq hx hzero).2
  unfold plusZero
  obtain rfl | h := eq_or_ne n 0
  · rw [if_pos (hcompare.trans (beq_iff_eq.2 (compare_eq_iff_eq.2 Int.cast_zero)))]
    rfl
  · have h : (n : ℚ) ≠ 0 := Int.cast_ne_zero.2 h
    rw [if_neg, eq_of_value hx (value?_ofInt bound) h]
    rw [hcompare, beq_iff_eq, compare_eq_iff_eq]
    exact h

end Number

/-- A finite number in JSON is read as the same number, without the sign of zero. -/
theorem Run.nativeOfJson_number {x : Float} (finite : x.isFinite = true) :
    nativeOfJson (Native.jsonNumber x) = pure (.number (Number.plusZero x)) := by
  rw [Number.isFinite_eq] at finite
  unfold Native.jsonNumber
  cases hexact : Number.exact x with
  | nan | infinite =>
    unfold Number.value? at finite
    rw [hexact] at finite
    cases finite
  | finite negative m e =>
    simp only
    split
    · next hsmall =>
      obtain ⟨hwhole, hbound⟩ := hsmall
      have hvalue := Number.value?_of_exact hexact
      rw [Number.Exact.value_of_isWhole hwhole] at hvalue
      show pure (Native.number (Number.ofInt _)) = _
      rw [Number.plusZero_of_value ?_ (hvalue.trans (congrArg some ?_))]
      · cases negative
        · exact hbound.le
        · exact (Int.natAbs_neg _).trans_le hbound.le
      · cases negative
        · exact (Int.cast_natCast _).symm
        · exact ((Int.cast_neg _).trans (congrArg Neg.neg (Int.cast_natCast _))).symm
    · next hother =>
      have hsigned : ¬ (x == 0) = true := by
        intro hzero
        obtain ⟨-, -, rfl | ⟨rfl, -⟩ | ⟨rfl, -⟩⟩ := Float.beq_iff_ne_nan_and_eq.1 hzero <;>
        · cases hexact
          exact hother (by decide)
      rw [Number.plusZero, if_neg hsigned]
      rfl

/-- The keys of an object, and what is read under them. -/
theorem Run.nativeFieldsOfJson_zip {keys : List String} {js : List Json}
    (h : keys.length = js.length) :
    Run.nativeFieldsOfJson (keys.zip js) = do return keys.zip (← Run.nativeItemsOfJson js) := by
  induction js generalizing keys with
  | nil =>
    rw [List.zip_nil_right]
    unfold Run.nativeItemsOfJson Run.nativeFieldsOfJson
    simp
  | cons j js ih =>
    cases keys with
    | nil => cases h
    | cons k keys =>
      rw [List.zip_cons_cons]
      unfold Run.nativeItemsOfJson Run.nativeFieldsOfJson
      rw [ih (Nat.succ.inj h)]
      simp

/-! ## Data -/

namespace Native

/-- What JSON can hold as it is, in whatever containers. -/
def Portable : Native → Prop
  | null | boolean _ | string _ | array _ | object _ => True
  | number x => x.isFinite = true
  | _ => False

/-- A value without the sign of zero. -/
def plusZero : Native → Native
  | number x => .number (Number.plusZero x)
  | v => v

end Native

namespace Data

mutual

/-- Data without the sign of any zero. -/
def plusZero : Data → Data
  | scalar v => scalar v.plusZero
  | node keys parts => node keys (plusZeros parts)

def plusZeros : List Data → List Data
  | [] => []
  | d :: ds => d.plusZero :: plusZeros ds

end

/-- Data that JSON can hold as it is, with a key for each part where there are keys. -/
inductive Portable : Data → Prop
  | scalar {v : Native} (plain : ∀ s, v.contents s = none) (portable : v.Portable) : Portable (.scalar v)
  | node {keys : Option (List String)} {parts : List Data}
    (keyed : ∀ ks ∈ keys, ks.length = parts.length) (inner : ∀ d ∈ parts, Portable d) :
    Portable (.node keys parts)

variable {d : Data} {ds : List Data}

theorem plusZeros_eq (ds : List Data) : plusZeros ds = ds.map plusZero := by
  induction ds with
  | nil => rfl
  | cons d ds ih => exact congrArg (_ :: ·) ih

theorem Portable.formed (h : d.Portable) : d.plusZero.Formed := by
  induction h with
  | @scalar v plain portable =>
    refine .scalar fun s => ?_
    cases v with
    | number x => rfl
    | _ => exact plain s
  | @node keys parts keyed _ ih =>
    unfold plusZero
    rw [plusZeros_eq]
    refine .node (fun ks hks => (keyed ks hks).trans (List.length_map _).symm) ?_
    exact List.forall_mem_map.2 ih

/-- Data is read from this JSON, as it is or without the signs of zeros. -/
def Rewritten (d : Data) (j : Json) : Prop :=
  Walk.json.fold d = .ok (some j) ∧ Run.nativeOfJson j = d.plusZero.make

theorem rewritten_scalar {v : Native} (plain : ∀ s, v.contents s = none) (portable : v.Portable) :
    ∃ j, (scalar v).Rewritten j := by
  cases v with
  | null | boolean | string => exact ⟨_, rfl, rfl⟩
  | number x => exact ⟨_, rfl, Run.nativeOfJson_number portable⟩
  | array place | object place => cases plain .empty
  | _ => cases portable

/-- Several values one after another. -/
theorem rewritten_all (h : ∀ d ∈ ds, ∃ j, d.Rewritten j) :
    ∃ js : List Json, js.length = ds.length ∧ Walk.json.foldAll ds = .ok (js.map some) ∧
      Run.nativeItemsOfJson js = makeAll (plusZeros ds) := by
  induction ds with
  | nil => exact ⟨[], rfl, rfl, rfl⟩
  | cons d ds ih =>
    obtain ⟨j, hfold, hmake⟩ := h d List.mem_cons_self
    obtain ⟨js, hlength, hfolds, hmakes⟩ := ih fun d hd => h d (List.mem_cons_of_mem _ hd)
    refine ⟨j :: js, congrArg Nat.succ hlength, ?_, ?_⟩
    · unfold Walk.foldAll
      rw [hfold, hfolds]
      rfl
    · unfold Run.nativeItemsOfJson plusZeros makeAll
      rw [hmake, hmakes]

theorem Portable.rewritten (h : d.Portable) : ∃ j, d.Rewritten j := by
  induction h with
  | scalar plain portable => exact rewritten_scalar plain portable
  | @node keys parts keyed _ ih =>
    obtain ⟨js, hlength, hfold, hmake⟩ := rewritten_all ih
    cases keys with
    | none =>
      refine ⟨.array js, ?_, ?_⟩
      · unfold Walk.fold
        rw [hfold]
        show Except.ok (some (Json.array ((js.map some).map (·.getD .null)))) = _
        rw [List.map_map]
        exact congrArg (Except.ok <| some <| Json.array ·) (List.map_id js)
      · unfold Run.nativeOfJson plusZero make
        rw [hmake]
    | some keys =>
      refine ⟨.object (keys.zip js), ?_, ?_⟩
      · unfold Walk.fold
        rw [hfold]
        show Except.ok (some (Json.object ((keys.zip (js.map some)).filterMap _))) = _
        rw [List.zip_map_right, List.filterMap_map]
        exact congrArg (Except.ok <| some <| Json.object ·) List.filterMap_some
      · unfold Run.nativeOfJson plusZero make
        rw [Run.nativeFieldsOfJson_zip ((keyed keys rfl).trans hlength.symm), hmake]
        simp

end Data

/-! ## Values -/

namespace Store

variable {s t t' : Store} {u v w : Native} {d : Data} {ps : List Native}

/-- What is reached from a value is none of its containers, or one of those that it leads to. -/
theorem Unfolds.mem_of_reaches (h : s.Unfolds v d ps) (hu : s.Reaches v u) :
    u.contents s = none ∨ u ∈ ps := by
  rw [reaches_iff] at hu
  induction h using induct with
  | scalar plain =>
    obtain rfl | ⟨_, ⟨c, hc, -⟩, -⟩ := hu.cases_head
    · exact .inl plain
    · cases plain.symm.trans hc
  | container _ there inner =>
    obtain rfl | ⟨x, ⟨c, hc, hx⟩, hu⟩ := hu.cases_head
    · exact .inr List.mem_cons_self
    · cases there.symm.trans hc
      obtain ⟨_, qs, hsub, -, ih⟩ := inner.of_mem hx
      exact (ih hu).imp_right fun hq => List.mem_cons_of_mem _ (hsub hq)

theorem Unfolds.portable (h : s.Unfolds v d ps) (portable : ∀ u, s.Reaches v u → u.Portable) :
    d.Portable := by
  induction h using induct with
  | scalar plain => exact .scalar (Native.plain_everywhere plain) (portable _ (.refl _))
  | container _ there inner =>
    refine .node (fun ks hks => (Native.length_keys there hks).trans inner.length_eq.symm) fun d hd => ?_
    obtain ⟨x, hx, _, -, ih⟩ := inner.of_mem_data hd
    exact ih fun u hu => portable u (reaches_iff.2 (.head ⟨_, there, hx⟩ (reaches_iff.1 hu)))

theorem exists_unfolds (h : ¬ s.Looped v) : ∃ d ps, s.Unfolds v d ps := by
  cases hx : v.toValue s with
  | error f => exact absurd ((Native.toValue_error_iff s v f).1 hx).2 h
  | ok x => exact (Native.toValue_ends s v).unfolds hx

theorem Reaches.trans (h : s.Reaches v u) (h' : s.Reaches u w) : s.Reaches v w :=
  reaches_iff.2 ((reaches_iff.1 h).trans (reaches_iff.1 h'))

/-- What is reached from a value with JSON has JSON. -/
theorem toJson_of_reaches {r : Option Json} (h : v.toJson s = .ok r) (hu : s.Reaches v u) :
    ∃ r', u.toJson s = .ok r' := by
  cases hr : u.toJson s with
  | ok r' => exact ⟨r', rfl⟩
  | error f =>
    have hfails : s.Looped v ∨ ∃ n, s.Reaches v (.big n) := by
      obtain ⟨x, hx, hloop⟩ | ⟨n, hn⟩ := (Native.toJson_fails_iff s u).1 ⟨f, hr⟩
      · exact .inl ⟨x, hu.trans hx, hloop⟩
      · exact .inr ⟨n, hu.trans hn⟩
    obtain ⟨f', hf'⟩ := (Native.toJson_fails_iff s v).2 hfails
    cases h.symm.trans hf'

/-- The JSON of several values. -/
theorem toJson_all {vs : List Native} {ds : List Data} {rs : List (Option Json)}
    (h : Gathers s.Unfolds vs ds ps) (hok : Walk.json.foldAll ds = .ok rs) :
    Forall₂ (fun u r => u.toJson s = .ok r) vs rs := by
  induction h generalizing rs with
  | nil =>
    cases hok
    exact .nil
  | @cons v d _ vs ds _ here _ ih =>
    unfold Walk.foldAll at hok
    cases hd : Walk.json.fold d with
    | error f =>
      rw [hd] at hok
      cases hok
    | ok r =>
      cases hds : Walk.json.foldAll ds with
      | error f =>
        rw [hd, hds] at hok
        cases hok
      | ok rs =>
        rw [hd, hds] at hok
        cases hok
        exact .cons (here.results.2.1.trans hd) (ih hds)

/-- The JSON of a container is made of that of the values in it. -/
theorem toJson_container {c : Contents} {r : Option Json} (there : u.contents s = some c)
    (h : u.toJson s = .ok r) : ∃ rs, Forall₂ (fun v r => v.toJson s = .ok r) c.values rs ∧
      Walk.json.build .undefined c.keys rs = r := by
  obtain ⟨d, ps, hd⟩ := (Native.toJson_ends s u).unfolds h
  have hfold := hd.results.2.1.symm.trans h
  cases hd with
  | scalar plain => cases plain.symm.trans there
  | container there' inner =>
    cases there.symm.trans there'
    obtain ⟨rs, hrs, hr⟩ := Walk.map_eq_ok hfold
    exact ⟨rs, toJson_all inner hrs, hr⟩

end Store

/-! ## What JSON leaves out -/

/-- Whether a value is none of those that JSON has. -/
def Native.isAbsent : Native → Bool
  | undefined | function _ | marker _ => true
  | _ => false

namespace Store

variable {s : Store} {u v : Native} {d : Data} {ps : List Native}

theorem toJson_eq_none_iff {r : Option Json} (h : v.toJson s = .ok r) :
    r = none ↔ v.isAbsent = true := by
  cases plain : v.contents s with
  | none =>
    have hplain := (Native.toJson_ends s v).unique (.scalar plain rfl)
    rw [h] at hplain
    cases v with
    | array place | object place => cases plain
    | big n => cases hplain
    | undefined | function | marker =>
      cases hplain
      exact ⟨fun _ => rfl, fun _ => rfl⟩
    | _ =>
      cases hplain
      exact ⟨(nomatch ·), (nomatch ·)⟩
  | some c =>
    obtain ⟨rs, -, rfl⟩ := toJson_container plain h
    cases v with
    | array place | object place =>
      cases plain
      exact ⟨(nomatch ·), (nomatch ·)⟩
    | _ => cases plain

/-- What is in place of an item in JSON. -/
def ItemAs (s : Store) (v : Native) (j : Json) : Prop :=
  if v.isAbsent then j = .null else v.toJson s = .ok (some j)

/-- What is in place of a property in JSON. -/
def FieldAs (s : Store) (f : String × Native) (e : String × Json) : Prop :=
  e.1 = f.1 ∧ f.2.toJson s = .ok (some e.2)

theorem items_toJson {vs : List Native} {rs : List (Option Json)}
    (h : Forall₂ (fun v r => v.toJson s = .ok r) vs rs) :
    Forall₂ s.ItemAs vs (rs.map (·.getD .null)) := by
  induction h with
  | nil => exact .nil
  | @cons v r _ _ here _ ih =>
    refine .cons ?_ ih
    have hnone := toJson_eq_none_iff here
    unfold ItemAs
    cases r with
    | none =>
      rw [if_pos (hnone.1 rfl)]
      rfl
    | some j =>
      rw [if_neg (mt hnone.2 (Option.some_ne_none j))]
      exact here

theorem fields_toJson {fs : Fields} {rs : List (Option Json)}
    (h : Forall₂ (fun v r => v.toJson s = .ok r) (fs.map (·.2)) rs) :
    Forall₂ s.FieldAs (fs.filter fun f => !f.2.isAbsent)
      (((fs.map (·.1)).zip rs).filterMap fun e => e.2.map (e.1, ·)) := by
  induction fs generalizing rs with
  | nil => exact .nil
  | cons f fs ih =>
    cases h with
    | @cons _ r _ _ here rest =>
      have hnone := toJson_eq_none_iff here
      cases r with
      | none =>
        rw [List.filter_cons_of_neg (by simp [hnone.1 rfl])]
        exact ih rest
      | some j =>
        rw [List.filter_cons_of_pos (by simpa using mt hnone.2 (Option.some_ne_none j))]
        exact .cons ⟨rfl, here⟩ (ih rest)

/-- What is left out of the JSON of a value, and what is in place of it. -/
theorem toJson_reached {r : Option Json} (h : v.toJson s = .ok r) (hu : s.Reaches v u) :
    (u.toJson s = .ok none ↔ u.isAbsent = true) ∧
    (∀ place, u = .array place → ∃ js, u.toJson s = .ok (some (.array js)) ∧
      Forall₂ s.ItemAs (s.items place).toList js) ∧
    ∀ place, u = .object place → ∃ es, u.toJson s = .ok (some (.object es)) ∧
      Forall₂ s.FieldAs ((s.fields place).filter fun f => !f.2.isAbsent) es := by
  obtain ⟨r', hr'⟩ := toJson_of_reaches h hu
  refine ⟨?_, ?_, ?_⟩
  · rw [← toJson_eq_none_iff hr', hr', Except.ok.injEq]
  · rintro place rfl
    obtain ⟨rs, hrs, rfl⟩ := toJson_container (Native.contents_array s place) hr'
    exact ⟨_, hr', items_toJson hrs⟩
  · rintro place rfl
    obtain ⟨rs, hrs, rfl⟩ := toJson_container (Native.contents_object s place) hr'
    exact ⟨_, hr', fields_toJson hrs⟩

/-- Data that was portable is read from its JSON into new containers. -/
theorem Unfolds.copies (h : s.Unfolds v d ps) (portable : d.Portable) :
    ∃ j, v.toJson s = .ok (some j) ∧ ∀ t, ∃ w t' qs, Run.nativeOfJson j t = .ok w t' ∧
      t.Copied d.plusZero w t' qs := by
  obtain ⟨j, hfold, hmake⟩ := portable.rewritten
  refine ⟨j, h.results.2.1.trans hfold, fun t => ?_⟩
  rw [hmake]
  exact portable.formed.copies t

/-- From a value that no cycle is reached from, and nothing but what JSON can hold, JSON is written.  In
any later store a value is read from it that holds the same, with the same keys in their order, but for
the signs of zeros.  The containers that hold it are new ones, so the value has none in common with the
first one, however that one shared its own.

Where JSON is written from a value at all, each item that JSON does not have is null and each such
property is left out, in all containers that are reached; the others are in place with their own JSON, in
the order in which they were. -/
theorem copied_through_json (s : Store) (v : Native) :
    (¬ s.Looped v → (∀ u, s.Reaches v u → s.Contains u ∧ u.Portable) →
      ∃ j d ps, v.toJson s = .ok (some j) ∧ s.Unfolds v d ps ∧
        ∀ t, s.Grows t → ∃ w t' qs, Run.nativeOfJson j t = .ok w t' ∧
          t.Copied d.plusZero w t' qs ∧
          ∀ u, s.Reaches v u → t'.Reaches w u → u.contents t' = none) ∧
    ∀ r, v.toJson s = .ok r → ∀ u, s.Reaches v u →
      (u.toJson s = .ok none ↔ u.isAbsent = true) ∧
      (∀ place, u = .array place → ∃ js, u.toJson s = .ok (some (.array js)) ∧
        Forall₂ s.ItemAs (s.items place).toList js) ∧
      ∀ place, u = .object place → ∃ es, u.toJson s = .ok (some (.object es)) ∧
        Forall₂ s.FieldAs ((s.fields place).filter fun f => !f.2.isAbsent) es := by
  refine ⟨fun hloop hall => ?_, fun r hr u hu => toJson_reached hr hu⟩
  obtain ⟨d, ps, hd⟩ := exists_unfolds hloop
  obtain ⟨j, hj, hread⟩ := hd.copies (hd.portable fun u hu => (hall u hu).2)
  refine ⟨j, d, ps, hj, hd, fun t hgrows => ?_⟩
  obtain ⟨w, t', qs, hw, hcopied⟩ := hread t
  refine ⟨w, t', qs, hw, hcopied, fun u hu hw => ?_⟩
  -- a container that is reached from the copy was not there before
  refine (hcopied.unfolds.mem_of_reaches hw).resolve_right fun hq => ?_
  exact hcopied.new u hq (hgrows.contains (hall u hu).1)

end Store

/-! ### An array that is shared, and an object with what JSON leaves out -/

def sharedZero : Store :=
  { Store.empty with
    arrays := #[.ofContent #[.number (-0), .null], .ofContent #[.undefined, .boolean true]]
    objects := #[.ofContent [("b", .array 0), ("a", .array 0)],
      .ofContent [("none", .undefined), ("items", .array 1)]] }

/-- What the first object holds. -/
def twiceZero : Data :=
  .node (some ["b", "a"]) [.node none [.scalar (.number (-0)), .scalar .null],
    .node none [.scalar (.number (-0)), .scalar .null]]

theorem unfolds_twiceZero :
    sharedZero.Unfolds (.object 0) twiceZero [.object 0, .array 0, .array 0] := by
  have items : Gathers sharedZero.Unfolds [.number (-0), .null]
      [.scalar (.number (-0)), .scalar .null] ([] ++ ([] ++ [])) :=
    .cons (.scalar rfl) (.cons (.scalar rfl) .nil)
  have inner : sharedZero.Unfolds (.array 0) (.node none [.scalar (.number (-0)), .scalar .null])
      [.array 0] :=
    .container (c := ⟨none, [.number (-0), .null]⟩) rfl items
  have fields : Gathers sharedZero.Unfolds [.array 0, .array 0] _
      ([Native.array 0] ++ ([Native.array 0] ++ [])) :=
    .cons inner (.cons inner .nil)
  exact .container (c := ⟨some ["b", "a"], [.array 0, .array 0]⟩) rfl fields

theorem reached_sharedZero {u : Native} (hu : sharedZero.Reaches (.object 0) u) :
    u = .object 0 ∨ u = .array 0 ∨ u = .number (-0) ∨ u = .null := by
  rw [Store.reaches_iff] at hu
  induction hu with
  | refl => exact .inl rfl
  | tail _ hstep ih =>
    obtain ⟨c, hc, hw⟩ := hstep
    obtain rfl | rfl | rfl | rfl := ih
    · cases hc
      have hw : _ ∈ [Native.array 0, .array 0] := hw
      simp at hw
      exact .inr (.inl hw)
    · cases hc
      have hw : _ ∈ [Native.number (-0), .null] := hw
      simp at hw
      exact .inr (.inr hw)
    · cases hc
    · cases hc

/-- The array is read twice, with a zero that has no sign.  Of the other object one property is left out,
of its array no item. -/
theorem shared_zero_copied :
    ¬ sharedZero.Looped (.object 0) ∧
    (∀ u, sharedZero.Reaches (.object 0) u → sharedZero.Contains u ∧ u.Portable) ∧
    (∃ j d ps w t qs, (Native.object 0).toJson sharedZero = .ok (some j) ∧
      sharedZero.Unfolds (.object 0) d ps ∧ Run.nativeOfJson j sharedZero = .ok w t ∧
      sharedZero.Copied d.plusZero w t qs) ∧
    (Native.object 1).toJson sharedZero =
      .ok (some (.object [("items", .array [.null, .bool true])])) ∧
    ∃ es, (Native.object 1).toJson sharedZero = .ok (some (.object es)) ∧
      Forall₂ sharedZero.FieldAs [("items", .array 1)] es := by
  have hloop := unfolds_twiceZero.not_looped
  have hall (u : Native) (hu : sharedZero.Reaches (.object 0) u) :
      sharedZero.Contains u ∧ u.Portable := by
    obtain rfl | rfl | rfl | rfl := reached_sharedZero hu
    · exact ⟨Nat.zero_lt_two, trivial⟩
    · exact ⟨Nat.zero_lt_two, trivial⟩
    · exact ⟨trivial, (by decide : (-0 : Float).isFinite = true)⟩
    · exact ⟨trivial, trivial⟩
  have hjson : (Native.object 1).toJson sharedZero =
      .ok (some (.object [("items", .array [.null, .bool true])])) := rfl
  obtain ⟨j, d, ps, hj, hd, hcopy⟩ := (Store.copied_through_json sharedZero (.object 0)).1 hloop hall
  obtain ⟨w, t, qs, hw, hcopied, -⟩ := hcopy sharedZero (.refl _)
  obtain ⟨-, -, hfields⟩ :=
    (Store.copied_through_json sharedZero (.object 1)).2 _ hjson (.object 1) (.refl _)
  exact ⟨hloop, hall, ⟨j, d, ps, w, t, qs, hj, hd, hw, hcopied⟩, hjson, hfields 1 rfl⟩

end Workbook
