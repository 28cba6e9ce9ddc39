/-
The conversions as walks.

A native value is converted to a value of formulas and to JSON by walks through its arrays and
objects, and to text by one through its arrays.  All three come to an end.  The first fails exactly
if a cycle is reached (`Native.toValue_error_iff`), the second if a cycle or a big integer is
(`Native.toJson_fails_iff`), and the third never.
-/
import Workbook.Proofs.Walk

open Relation (ReflTransGen TransGen)

namespace Workbook

variable {s : Store} {outer : List Native} {v : Native}

/-! ## Values of formulas and JSON -/

/-- The container that a value is, and how often it has been modified. -/
def Native.origin (s : Store) : Native → Option Origin
  | .array place => some ⟨place, ((s.arrays[place]?).map Container.version).getD 0⟩
  | .object place => some ⟨place, ((s.objects[place]?).map Container.version).getD 0⟩
  | _ => none

namespace Walk

/-- The walk by which a value is converted to one of formulas. -/
def value (s : Store) : Walk Value where
  scalar v := v.toValueIn .empty 0 []
  cyclic := .cyclic
  build v keys parts :=
    match keys with
    | none => .list parts (v.origin s)
    | some keys => .mapping (Entries.ofList (keys.zip parts)) (v.origin s)

/-- The walk by which a value is converted to JSON. -/
def json : Walk (Option Json) where
  scalar v := v.toJsonIn .empty 0 []
  cyclic := Native.circularJson
  build _ keys parts :=
    match keys with
    | none => some (.array (parts.map (·.getD .null)))
    | some keys => some (.object ((keys.zip parts).filterMap fun e => e.2.map (e.1, ·)))

end Walk

namespace Native

theorem any_strictEquals {c : Contents} (there : v.contents s = some c) :
    outer.any (strictEquals v) = true ↔ v ∈ outer := by
  rw [List.any_eq_true]
  constructor
  · rintro ⟨u, hu, heq⟩
    have hvu : v = u := by
      cases v with
      | array place =>
        cases u with
        | array other => exact congrArg array (beq_iff_eq.1 heq)
        | _ => cases heq
      | object place =>
        cases u with
        | object other => exact congrArg object (beq_iff_eq.1 heq)
        | _ => cases heq
      | _ => cases there
    exact hvu ▸ hu
  · intro hv
    refine ⟨v, hv, ?_⟩
    cases v with
    | array place => exact beq_self_eq_true place
    | object place => exact beq_self_eq_true place
    | _ => cases there

/-- What is collected from pairs, key by key. -/
theorem collect_pairs {α β : Type} (f : α → Except Fault β) (es : List (String × α)) :
    collect (fun e : String × α => (e.1, ·) <$> f e.2) es =
      (es.map (·.1)).zip <$> collect f (es.map (·.2)) := by
  induction es with
  | nil => rfl
  | cons e es ih =>
    rw [collect, List.map_cons, List.map_cons, collect, ih]
    cases f e.2 with
    | error x => rfl
    | ok b =>
      cases collect f (es.map (·.2)) with
      | error x => rfl
      | ok bs => rfl

theorem collect_map {α β γ : Type} (g : β → γ) (f : α → Except Fault β)
    (as : List α) : collect (fun a => g <$> f a) as = List.map g <$> collect f as := by
  induction as with
  | nil => rfl
  | cons a as ih =>
    rw [collect, collect, ih]
    cases f a with
    | error e => rfl
    | ok b => cases collect f as <;> rfl

end Native

open Native

theorem Walk.value_describes (s : Store) : (Walk.value s).Describes s (toValueIn s) where
  scalar {fuel outer v} plain := by
    cases v with
    | array place => cases plain
    | object place => cases plain
    | _ => cases fuel <;> rfl
  cyclic {fuel outer v c} there again := by
    have hany := (any_strictEquals there).2 again
    cases v with
    | array place =>
      unfold toValueIn
      rw [if_pos hany]
      rfl
    | object place =>
      unfold toValueIn
      rw [if_pos hany]
      rfl
    | _ => cases there
  container {fuel outer v c} there first := by
    have hany := mt (any_strictEquals there).1 first
    cases v with
    | array place =>
      cases there
      unfold toValueIn
      rw [if_neg hany]
      cases collect (toValueIn s fuel (array place :: outer)) (s.items place).toList <;> rfl
    | object place =>
      cases there
      have hpairs := collect_pairs (toValueIn s fuel (object place :: outer)) (s.fields place)
      unfold toValueIn
      rw [if_neg hany]
      simp only [hpairs]
      cases collect (toValueIn s fuel (object place :: outer)) ((s.fields place).map (·.2)) <;> rfl
    | _ => cases there

theorem Walk.json_describes (s : Store) : Walk.json.Describes s (toJsonIn s) where
  scalar {fuel outer v} plain := by
    cases v with
    | array place => cases plain
    | object place => cases plain
    | _ => cases fuel <;> rfl
  cyclic {fuel outer v c} there again := by
    have hany := (any_strictEquals there).2 again
    cases v with
    | array place =>
      unfold toJsonIn
      rw [if_pos hany]
      rfl
    | object place =>
      unfold toJsonIn
      rw [if_pos hany]
      rfl
    | _ => cases there
  container {fuel outer v c} there first := by
    have hany := mt (any_strictEquals there).1 first
    cases v with
    | array place =>
      cases there
      unfold toJsonIn
      rw [if_neg hany]
      cases collect (toJsonIn s fuel (array place :: outer)) (s.items place).toList <;> rfl
    | object place =>
      cases there
      have hpairs := collect_pairs (toJsonIn s fuel (object place :: outer)) (s.fields place)
      unfold toJsonIn
      rw [if_neg hany]
      simp only [hpairs]
      cases collect (toJsonIn s fuel (object place :: outer)) ((s.fields place).map (·.2)) <;> rfl
    | _ => cases there

namespace Native

theorem covers_containers (s : Store) : Covers s.places [] (s.containers + 1) :=
  .start (by rw [s.length_places]; exact Nat.lt_succ_self _)

theorem toValue_ends (s : Store) (v : Native) : (Walk.value s).Ends s [] v (v.toValue s) :=
  (Walk.value_describes s).ends (covers_containers s)

theorem toJson_ends (s : Store) (v : Native) : Walk.json.Ends s [] v (v.toJson s) :=
  (Walk.json_describes s).ends (covers_containers s)

/-- What is no container is always converted. -/
theorem toValueIn_plain (plain : v.contents s = none) :
    ∃ t, v.toValueIn .empty 0 [] = .ok t := by
  cases v with
  | array place => cases plain
  | object place => cases plain
  | _ => exact ⟨_, rfl⟩

theorem toJsonIn_plain (plain : v.contents s = none) :
    (∃ f, v.toJsonIn .empty 0 [] = .error f) ↔ ∃ n, v = .big n := by
  cases v with
  | array place => cases plain
  | object place => cases plain
  | big n => exact ⟨fun _ => ⟨n, rfl⟩, fun _ => ⟨_, rfl⟩⟩
  | _ =>
    constructor
    · rintro ⟨f, h⟩
      cases h
    · rintro ⟨n, h⟩
      cases h

/-- The conversion to a value of formulas fails exactly if a cycle is reached, and always in the
same way. -/
theorem toValue_error_iff (s : Store) (v : Native) (f : Fault) :
    v.toValue s = .error f ↔ f = .cyclic ∧ s.Looped v := by
  have ends := toValue_ends s v
  have no_scalar {u : Native} {f : Fault} (plain : u.contents s = none) :
      (Walk.value s).scalar u ≠ .error f := by
    obtain ⟨t, ht⟩ := toValueIn_plain plain
    intro hf
    have hf : u.toValueIn .empty 0 [] = .error f := hf
    rw [ht] at hf
    cases hf
  constructor
  · intro h
    obtain hloop | ⟨u, -, plain, result⟩ := ends.blames h fun _ ho => absurd ho List.not_mem_nil
    · exact hloop
    · exact absurd result (no_scalar plain)
  · rintro ⟨rfl, hloop⟩
    obtain ⟨f, hf⟩ := ends.fails_iff.2 ⟨_, .inl ⟨rfl, hloop⟩⟩
    obtain ⟨rfl, -⟩ | ⟨u, -, plain, result⟩ := ends.blames hf fun _ ho => absurd ho List.not_mem_nil
    · exact hf
    · exact absurd result (no_scalar plain)

/-- The conversion to JSON fails exactly if a cycle or a big integer is reached. -/
theorem toJson_fails_iff (s : Store) (v : Native) :
    (∃ f, v.toJson s = .error f) ↔ s.Looped v ∨ ∃ n, s.Reaches v (.big n) := by
  refine (toJson_ends s v).fails_iff.trans ⟨?_, ?_⟩
  · rintro ⟨f, ⟨-, hloop⟩ | ⟨u, hu, plain, result⟩⟩
    · exact .inl hloop
    · obtain ⟨n, rfl⟩ := (toJsonIn_plain plain).1 ⟨f, result⟩
      exact .inr ⟨n, hu⟩
  · rintro (hloop | ⟨n, hn⟩)
    · exact ⟨_, .inl ⟨rfl, hloop⟩⟩
    · obtain ⟨f, hf⟩ := (toJsonIn_plain (s := s) (v := .big n) rfl).2 ⟨n, rfl⟩
      exact ⟨f, .inr ⟨_, hn, rfl, hf⟩⟩

end Native

/-! ## Text -/

namespace Native

mutual

/-- The text of a value, inside the arrays `outer`.  A text without an end would have no
derivation. -/
inductive Shows (s : Store) : List Nat → Native → String → Prop
  | plain {outer : List Nat} {v : Native} (h : ∀ place, v ≠ .array place) :
      Shows s outer v (v.textIn .empty 0 [])
  | again {outer : List Nat} {place : Nat} (h : place ∈ outer) : Shows s outer (.array place) ""
  | array {outer : List Nat} {place : Nat} {ts : List String} (h : place ∉ outer)
      (items : ShowsAll s (place :: outer) (s.items place).toList ts) :
      Shows s outer (.array place) (",".intercalate ts)

/-- The texts of items. -/
inductive ShowsAll (s : Store) : List Nat → List Native → List String → Prop
  | nil {outer : List Nat} : ShowsAll s outer [] []
  | nullish {outer : List Nat} {v : Native} {vs : List Native} {ts : List String}
      (h : v.isNullish = true) (rest : ShowsAll s outer vs ts) :
      ShowsAll s outer (v :: vs) ("" :: ts)
  | cons {outer : List Nat} {v : Native} {vs : List Native} {t : String} {ts : List String}
      (h : v.isNullish = false) (here : Shows s outer v t) (rest : ShowsAll s outer vs ts) :
      ShowsAll s outer (v :: vs) (t :: ts)

end

theorem Shows.unique {outer : List Nat} {t t' : String} (h : v.Shows s outer t)
    (h' : v.Shows s outer t') : t = t' := by
  refine h.rec (motive_1 := fun outer v t _ => ∀ t', Shows s outer v t' → t = t')
    (motive_2 := fun outer vs ts _ => ∀ ts', ShowsAll s outer vs ts' → ts = ts')
    ?plain ?again ?array ?nil ?nullish ?cons t' h'
  case plain =>
    intro outer v plain t' h'
    cases h' with
    | plain => rfl
    | again | array => exact absurd rfl (plain _)
  case again =>
    intro outer place again t' h'
    cases h' with
    | plain plain => exact absurd rfl (plain _)
    | again => rfl
    | array first => exact absurd again first
  case array =>
    intro outer place ts first _ ih t' h'
    cases h' with
    | plain plain => exact absurd rfl (plain _)
    | again again => exact absurd again first
    | array _ items => rw [ih _ items]
  case nil =>
    intro outer ts' h'
    cases h'
    rfl
  case nullish =>
    intro outer v vs ts nullish _ ih ts' h'
    cases h' with
    | nullish _ rest => rw [ih _ rest]
    | cons other =>
      rw [nullish] at other
      cases other
  case cons =>
    intro outer v vs t ts other _ _ ih ihrest ts' h'
    cases h' with
    | nullish nullish =>
      rw [nullish] at other
      cases other
    | cons _ here rest => rw [ih _ here, ihrest _ rest]

theorem showsAll_map {outer : List Nat} {f : Native → String} {vs : List Native}
    (h : ∀ v ∈ vs, v.isNullish = false → v.Shows s outer (f v)) :
    ShowsAll s outer vs (vs.map fun v => if v.isNullish then "" else f v) := by
  induction vs with
  | nil => exact .nil
  | cons v vs ih =>
    have rest := ih fun u hu => h u (List.mem_cons_of_mem _ hu)
    rw [List.map_cons]
    cases hv : v.isNullish with
    | true => exact .nullish hv rest
    | false => exact .cons hv (h v List.mem_cons_self hv) rest

theorem textIn_shows {outer : List Nat} {fuel : Nat}
    (covers : Covers (List.range s.arrays.size) outer fuel) :
    v.Shows s outer (v.textIn s fuel outer) := by
  induction fuel generalizing outer v with
  | zero => exact absurd rfl covers.ne_zero
  | succ fuel ih =>
    cases v with
    | array place =>
      unfold textIn
      by_cases again : place ∈ outer
      · rw [if_pos (List.contains_iff_mem.2 again)]
        exact .again again
      · rw [if_neg (mt List.contains_iff_mem.1 again)]
        refine .array again (showsAll_map fun u hu _ => ih (covers.cons (List.mem_range.2 ?_) again))
        refine Nat.lt_of_not_le fun hle => ?_
        rw [Store.items_of_size_le hle] at hu
        cases hu
    | _ => exact .plain (by simp)

theorem text_shows (s : Store) (v : Native) : v.Shows s [] (v.text s) :=
  textIn_shows (.start (by simp))

end Native
end Workbook
