/-
Values of formulas in JSON, and back.

A value that is made of what JSON has comes back as it was (`value_comes_back`): the tags of its
numbers are told apart, and the keys of a mapping, of which no two are equal up to case, all stay.

JSON in whose objects no two keys are equal up to case comes back too, but not an integer that a word
does not hold, although JSON may have one (`json_comes_back`).  It becomes the double that is nearest to
it (`wide_integer_rounded`).
-/
import Workbook.Proofs.Formula.Equality
import Workbook.Proofs.Number.Order
import Workbook.Proofs.Walk.Return

open List (Forall₂)

namespace Workbook

/-! ## Finite doubles -/

namespace Number

theorem isFinite_eq (x : Float) : x.isFinite = (value? x).isSome := by
  show x.toModel.unpack.isFinite = _
  rw [unpack_eq]
  unfold value?
  cases exact x with
  | nan => rfl
  | infinite negative => rfl
  | finite negative m e =>
    obtain rfl | hm := Nat.eq_zero_or_pos m
    · rfl
    · rw [← Exact.unpacked_pos negative hm rfl rfl]
      rfl

/-- The double that is nearest to an integer of JSON is a number. -/
theorem isFinite_ofInt {n : Int} (low : -2 ^ 63 ≤ n) (high : n < 2 ^ 64) : (ofInt n).isFinite = true := by
  rw [isFinite_eq]
  obtain ⟨r, hr, -⟩ | ⟨-, hbeyond⟩ := ofInt_nearby n
  · rw [hr]
    rfl
  · -- then these two would lie between the integer and all doubles
    have hleast : value? (Float.ofBits 0xc3f0000000000000) = some (-2 ^ 64 : ℚ) := by
      have hexact : exact (Float.ofBits 0xc3f0000000000000) = .finite true (2 ^ 52) 12 := by
        decide
      rw [value?_of_exact hexact]
      norm_num
    have hmost : value? (Float.ofBits 0x43f0000000000000) = some (2 ^ 64 : ℚ) := by
      have hexact : exact (Float.ofBits 0x43f0000000000000) = .finite false (2 ^ 52) 12 := by
        decide
      rw [value?_of_exact hexact]
      norm_num
    have hleast := hbeyond _ _ hleast
    have hmost := hbeyond _ _ hmost
    split at hleast
    · have hlow : (n : ℚ) < -2 ^ 64 := hleast
      have hlow : n < -2 ^ 64 := by exact_mod_cast hlow
      omega
    · rename_i hnegative
      rw [if_neg hnegative] at hmost
      have hhigh : (2 ^ 64 : Int) < n := by exact_mod_cast hmost
      omega

end Number

/-! ## Lists of values -/

namespace Throughout

variable {I : Store → Prop} {α β : Type}

/-- What comes of all members of a list, one after the other. -/
theorem mapM {f : Engine → α → Run β} {as : List α} {bs : List β}
    (h : Forall₂ (fun a b => Throughout I (fun e => f e a) b) as bs) :
    Throughout I (fun e => as.mapM (f e)) bs := by
  induction h with
  | nil => exact pure
  | cons here _ ih =>
    simp only [List.mapM_cons]
    exact here.bind (ih.bind pure)

end Throughout

namespace Entries

theorem map_lower_keys (entries : Entries) : entries.keys.map Text.lower = entries.forms :=
  List.map_map

/-- Entries with other values under their keys. -/
theorem forms_zip {α : Type} {entries : Entries} {as : List α} (h : entries.length ≤ as.length) :
    (entries.keys.zip as).map (fun e => Text.lower e.1) = entries.forms := by
  have hlength : entries.keys.length ≤ as.length := (List.length_map _).trans_le h
  rw [← map_lower_keys, ← List.map_fst_zip hlength, List.map_map, List.map_fst_zip hlength]
  rfl

/-- Entries that are values already are read as these. -/
theorem throughout_ofPairs {I : Store → Prop} (es : List (String × Value)) :
    Forall₂ (fun e v => Throughout I (fun eng => eng.read e.2) v) (ofPairs es) (es.map (·.2)) :=
  List.forall₂_map_left_iff.2 (List.forall₂_map_right_iff.2 (List.forall₂_same.2 fun _ _ => .pure))

end Entries

namespace Value

theorem itemsOfJson_eq (js : List Json) : itemsOfJson js = js.map ofJson := by
  induction js with
  | nil => rfl
  | cons j js ih => exact congrArg (_ :: ·) ih

theorem entriesOfJson_eq (es : List (String × Json)) :
    entriesOfJson es = es.map fun e => (e.1, ofJson e.2) := by
  induction es with
  | nil => rfl
  | cons e es ih => exact congrArg (_ :: ·) ih

/-- An object without keys that are equal up to case makes a mapping with all of its entries. -/
theorem ofJson_object {es : List (String × Json)} (distinct : (es.map fun e => Text.lower e.1).Nodup) :
    ofJson (.object es) = .mapping (Entries.ofPairs (es.map fun e => (e.1, ofJson e.2))) none := by
  show Value.mapping (Entries.ofList (entriesOfJson es)) none = _
  rw [entriesOfJson_eq, Entries.ofList_eq_ofPairs]
  rw [List.map_map]
  exact distinct

/-! ## The JSON of values -/

/-- The JSON of a value, in all of these stores. -/
def ShownAs (I : Store → Prop) (v : Value) (j : Json) : Prop :=
  Throughout I (fun e => e.ask (.json v)) j

section ShownAs

variable {I : Store → Prop} {v : Value} {items vs : List Value} {entries : Entries} {js : List Json}

/-- A value whose JSON is no computation. -/
theorem shownAs_flat {j : Json} (h : ∀ e : Engine, e.json v = pure j) : v.ShownAs I j := by
  refine Throughout.ask (x := fun _ => pure j) .pure fun fuel => ?_
  exact h (Engine.ofFuel fuel)

theorem shownAs_float {x : Float} (finite : x.isFinite = true) : (float x).ShownAs I (.float x) := by
  refine shownAs_flat fun _ => ?_
  show pure (Engine.floatJson x) = _
  unfold Engine.floatJson
  rw [if_pos finite]

theorem shownAs_list (origin : Option Origin) (h : Forall₂ (ShownAs I) items js) :
    (list items origin).ShownAs I (.array js) := by
  have hjson : Throughout I (fun e => e.json (.list items origin)) (.array js) :=
    (Throughout.mapM h).bind (k := fun _ js => pure (Json.array js)) .pure
  exact hjson.ask fun _ => rfl

/-- Entries in JSON have the keys that they have, in the same order. -/
theorem throughout_entriesJson
    (read : Forall₂ (fun e v => Throughout I (fun eng => eng.read e.2) v) entries vs)
    (h : Forall₂ (ShownAs I) vs js) :
    Throughout I (fun e => e.entriesJson entries) (entries.keys.zip js) := by
  induction read generalizing js with
  | nil =>
    cases h
    exact .pure
  | cons here _ ih =>
    cases h with
    | cons hj rest => exact here.bind (Throughout.bind hj ((ih rest).bind .pure))

theorem shownAs_mapping (origin : Option Origin)
    (read : Forall₂ (fun e v => Throughout I (fun eng => eng.read e.2) v) entries vs)
    (h : Forall₂ (ShownAs I) vs js) :
    (mapping entries origin).ShownAs I (.object (entries.keys.zip js)) := by
  have hjson : Throughout I (fun e => e.json (.mapping entries origin))
      (.object (entries.keys.zip js)) :=
    (throughout_entriesJson read h).bind (k := fun _ es => pure (Json.object es)) .pure
  exact hjson.ask fun _ => rfl

end ShownAs

/-! ## Values that JSON has -/

/-- A value made of what JSON has, and the same value with its lazy entries read and the containers
forgotten that it came from. -/
inductive InJson (I : Store → Prop) : Value → Value → Prop
  | null : InJson I .null .null
  | boolean (b : Bool) : InJson I (.boolean b) (.boolean b)
  | integer (n : Int64) : InJson I (.integer n) (.integer n)
  | float {x : Float} (finite : x.isFinite = true) : InJson I (.float x) (.float x)
  | string (s : String) : InJson I (.string s) (.string s)
  | list {items us : List Value} (origin : Option Origin) (inner : Forall₂ (InJson I) items us) :
    InJson I (.list items origin) (.list us none)
  | mapping {entries : Entries} {vs us : List Value} (origin : Option Origin)
    (distinct : entries.forms.Nodup)
    (read : Forall₂ (fun e v => Throughout I (fun eng => eng.read e.2) v) entries vs)
    (inner : Forall₂ (InJson I) vs us) :
    InJson I (.mapping entries origin) (.mapping (Entries.ofPairs (entries.keys.zip us)) none)

/-- The JSON of the first value is read as the second one. -/
def Survives (I : Store → Prop) (t u : Value) : Prop :=
  ∃ j, t.ShownAs I j ∧ ofJson j = u

variable {I : Store → Prop} {t u : Value} {items us vs : List Value} {entries : Entries}

/-- The JSON of several values. -/
theorem survivesAll (h : Forall₂ (Survives I) vs us) :
    ∃ js, Forall₂ (ShownAs I) vs js ∧ js.map ofJson = us := by
  induction h with
  | nil => exact ⟨[], .nil, rfl⟩
  | cons here _ ih =>
    obtain ⟨j, hj, rfl⟩ := here
    obtain ⟨js, hjs, rfl⟩ := ih
    exact ⟨j :: js, .cons hj hjs, rfl⟩

theorem survives_list (origin : Option Origin) (h : Forall₂ (Survives I) items us) :
    Survives I (.list items origin) (.list us none) := by
  obtain ⟨js, hjs, rfl⟩ := survivesAll h
  refine ⟨.array js, shownAs_list origin hjs, ?_⟩
  show Value.list (itemsOfJson js) none = _
  rw [itemsOfJson_eq]

theorem survives_mapping (origin : Option Origin) (distinct : entries.forms.Nodup)
    (read : Forall₂ (fun e v => Throughout I (fun eng => eng.read e.2) v) entries vs)
    (h : Forall₂ (Survives I) vs us) :
    Survives I (.mapping entries origin) (.mapping (Entries.ofPairs (entries.keys.zip us)) none) := by
  obtain ⟨js, hjs, rfl⟩ := survivesAll h
  refine ⟨.object (entries.keys.zip js), shownAs_mapping origin read hjs, ?_⟩
  have hforms := Entries.forms_zip (read.length_eq.trans hjs.length_eq).le
  rw [ofJson_object (hforms ▸ distinct), List.zip_map_right]
  rfl

theorem ofJson_toInt (n : Int64) : ofJson (.integer n.toInt) = .integer n := by
  show (if Number.fitsWord n.toInt = true then _ else _) = _
  rw [if_pos (Number.fitsWord_toInt n), Int64.ofInt_toInt]

/-- A value that is made of what JSON has comes back from JSON, with all of its tags, items and keys, in
their order. -/
theorem value_comes_back (h : t.InJson I u) : ∃ j, t.ShownAs I j ∧ ofJson j = u := by
  refine h.rec (motive_1 := fun t u _ => Survives I t u)
    (motive_2 := fun ts us _ => Forall₂ (Survives I) ts us) ?null ?boolean ?integer ?float ?string ?list
    ?mapping ?nil ?cons
  case null => exact ⟨.null, shownAs_flat fun _ => rfl, rfl⟩
  case boolean => exact fun b => ⟨.bool b, shownAs_flat fun _ => rfl, rfl⟩
  case integer => exact fun n => ⟨.integer n.toInt, shownAs_flat fun _ => rfl, ofJson_toInt n⟩
  case float => exact fun finite => ⟨.float _, shownAs_float finite, rfl⟩
  case string => exact fun s => ⟨.string s, shownAs_flat fun _ => rfl, rfl⟩
  case list => exact fun origin _ ih => survives_list origin ih
  case mapping => exact fun origin distinct read _ ih => survives_mapping origin distinct read ih
  case nil => exact .nil
  case cons => exact fun _ _ ih ihrest => .cons ih ihrest

/-- A value that is not computed yet. -/
def ratio : Store :=
  { Store.empty with thunks := #[.pending (.value (.float 2))] }

/-- A list that came from an array, and an entry that is not read yet, under keys in two spellings. -/
def rowsAndRatio : Entries :=
  [("Rows", .ready (.list [.integer 2, .null] (some ⟨0, 0⟩))), ("RATIO", .lazy 0)]

/-- A double without a fraction stays a double, next to an integer. -/
theorem rows_and_ratio_come_back :
    (Value.mapping rowsAndRatio none).InJson ratio.Keeps
      (.mapping [("Rows", .ready (.list [.integer 2, .null] none)), ("RATIO", .ready (.float 2))] none) ∧
    ∃ j, (Value.mapping rowsAndRatio none).ShownAs ratio.Keeps j ∧ ofJson j =
      .mapping [("Rows", .ready (.list [.integer 2, .null] none)), ("RATIO", .ready (.float 2))]
        none := by
  have hratio : ratio.Yields (.lazy 0) (.float 2) := .pending rfl
  have hfloat : (Value.float 2).InJson ratio.Keeps (.float 2) := .float (by decide)
  have hrows : (Value.list [.integer 2, .null] (some ⟨0, 0⟩)).InJson ratio.Keeps
      (.list [.integer 2, .null] none) :=
    .list _ (.cons (.integer 2) (.cons .null .nil))
  have hall : (Value.mapping rowsAndRatio none).InJson ratio.Keeps
      (.mapping [("Rows", .ready (.list [.integer 2, .null] none)), ("RATIO", .ready (.float 2))]
        none) :=
    .mapping none (by decide)
      (.cons Store.Yields.ready.throughout (.cons hratio.throughout .nil))
      (.cons hrows (.cons hfloat .nil))
  exact ⟨hall, value_comes_back hall⟩

end Value

/-! ## JSON that values have -/

namespace Json

/-- JSON in whose objects no two keys are equal up to case, with the numbers that JSON may have. -/
inductive Distinct : Json → Prop
  | null : Distinct .null
  | bool (b : Bool) : Distinct (.bool b)
  | integer {n : Int} (low : -2 ^ 63 ≤ n) (high : n < 2 ^ 64) : Distinct (.integer n)
  | float {x : Float} (finite : x.isFinite = true) : Distinct (.float x)
  | string (s : String) : Distinct (.string s)
  | array {js : List Json} (inner : ∀ j ∈ js, Distinct j) : Distinct (.array js)
  | object {es : List (String × Json)} (distinct : (es.map fun e => Text.lower e.1).Nodup)
    (inner : ∀ e ∈ es, Distinct e.2) : Distinct (.object es)

/-- What is in JSON, at any depth. -/
inductive IsIn (i : Json) : Json → Prop
  | self : IsIn i i
  | item {j : Json} {js : List Json} (hj : j ∈ js) (h : IsIn i j) : IsIn i (.array js)
  | entry {e : String × Json} {es : List (String × Json)} (he : e ∈ es) (h : IsIn i e.2) :
    IsIn i (.object es)

mutual

/-- JSON with the nearest double for each integer that a word does not hold. -/
def rounded : Json → Json
  | .integer n => if Number.fitsWord n then .integer n else .float (Number.ofInt n)
  | .array js => .array (roundedItems js)
  | .object es => .object (roundedEntries es)
  | j => j

def roundedItems : List Json → List Json
  | [] => []
  | j :: js => rounded j :: roundedItems js

def roundedEntries : List (String × Json) → List (String × Json)
  | [] => []
  | (k, j) :: es => (k, rounded j) :: roundedEntries es

end

theorem roundedItems_eq (js : List Json) : roundedItems js = js.map rounded := by
  induction js with
  | nil => rfl
  | cons j js ih => exact congrArg (_ :: ·) ih

theorem roundedEntries_eq (es : List (String × Json)) :
    roundedEntries es = es.map fun e => (e.1, e.2.rounded) := by
  induction es with
  | nil => rfl
  | cons e es ih => exact congrArg (_ :: ·) ih

theorem map_eq_self_iff {α : Type} {f : α → α} {as : List α} : as.map f = as ↔ ∀ a ∈ as, f a = a := by
  have hmap := List.map_inj_left (l := as) (f := f) (g := id)
  rwa [List.map_id] at hmap

variable {I : Store → Prop} {j : Json}

/-- Nothing is rounded exactly if a word holds all integers. -/
theorem Distinct.rounded_eq_iff (h : j.Distinct) :
    j.rounded = j ↔ ∀ n, (Json.integer n).IsIn j → Number.fitsWord n = true := by
  induction h with
  | null | bool | float | string => exact ⟨fun _ n hn => (nomatch hn), fun _ => rfl⟩
  | @integer n low high =>
    show (if Number.fitsWord n then Json.integer n else .float (Number.ofInt n)) = .integer n ↔ _
    constructor
    · intro hsame m hm
      cases hm
      by_contra hwide
      rw [if_neg hwide] at hsame
      cases hsame
    · intro hfits
      rw [if_pos (hfits n .self)]
  | @array js _ ih =>
    show Json.array (roundedItems js) = .array js ↔ _
    rw [Json.array.injEq, roundedItems_eq, map_eq_self_iff]
    constructor
    · intro hsame n hn
      cases hn with
      | item hj hn => exact (ih _ hj).1 (hsame _ hj) n hn
    · exact fun hfits j hj => (ih j hj).2 fun n hn => hfits n (.item hj hn)
  | @object es _ _ ih =>
    show Json.object (roundedEntries es) = .object es ↔ _
    rw [Json.object.injEq, roundedEntries_eq, map_eq_self_iff]
    constructor
    · intro hsame n hn
      cases hn with
      | entry he hn => exact (ih _ he).1 (congrArg Prod.snd (hsame _ he)) n hn
    · exact fun hfits e he => Prod.ext rfl ((ih e he).2 fun n hn => hfits n (.entry he hn))

/-- A value that JSON is read as has that JSON again, but for what is rounded. -/
theorem Distinct.shownAs_rounded (h : j.Distinct) : (Value.ofJson j).ShownAs I j.rounded := by
  induction h with
  | null | bool | string => exact Value.shownAs_flat fun _ => rfl
  | @integer n low high =>
    show Value.ShownAs I (if Number.fitsWord n then _ else _)
      (if Number.fitsWord n then Json.integer n else .float (Number.ofInt n))
    by_cases hfits : Number.fitsWord n = true
    · rw [if_pos hfits, if_pos hfits]
      have hword := Value.shownAs_flat (I := I) (v := .integer (Int64.ofInt n)) fun _ => rfl
      rwa [(Number.toInt_ofInt_eq_iff n).2 hfits] at hword
    · rw [if_neg hfits, if_neg hfits]
      exact Value.shownAs_float (Number.isFinite_ofInt low high)
  | float finite => exact Value.shownAs_float finite
  | @array js _ ih =>
    have hitems : Forall₂ (Value.ShownAs I) (js.map Value.ofJson) (js.map rounded) :=
      List.forall₂_map_left_iff.2 (List.forall₂_map_right_iff.2 (List.forall₂_same.2 ih))
    have hlist := Value.shownAs_list none hitems
    rw [← Value.itemsOfJson_eq, ← roundedItems_eq] at hlist
    exact hlist
  | @object es distinct _ ih =>
    let entries := Entries.ofPairs (es.map fun e => (e.1, Value.ofJson e.2))
    have hentries : entries = es.map fun e => (e.1, .ready (Value.ofJson e.2)) := List.map_map
    have hread : Forall₂ (fun e v => Throughout I (fun eng => eng.read e.2) v) entries
        (es.map fun e => Value.ofJson e.2) := by
      have hpairs := Entries.throughout_ofPairs (I := I) (es.map fun e => (e.1, Value.ofJson e.2))
      rwa [List.map_map] at hpairs
    have hshown : Forall₂ (Value.ShownAs I) (es.map fun e => Value.ofJson e.2)
        (es.map fun e => e.2.rounded) :=
      List.forall₂_map_left_iff.2 (List.forall₂_map_right_iff.2 (List.forall₂_same.2 ih))
    have hobject : entries.keys.zip (es.map fun e => e.2.rounded) = roundedEntries es := by
      rw [roundedEntries_eq, Entries.keys, hentries, List.map_map]
      exact List.zip_map'
    have hmapping := Value.shownAs_mapping none hread hshown
    rw [hobject, ← Value.ofJson_object distinct] at hmapping
    exact hmapping

/-- JSON in whose objects no two keys are equal up to case is read as a value.  That value has the same
JSON again, but for integers that a word does not hold: of these the nearest double is left.  So it is
the same exactly if there are none.  All other integers become words with their values. -/
theorem json_comes_back (h : j.Distinct) :
    (Value.ofJson j).ShownAs I j.rounded ∧
    (j.rounded = j ↔ ∀ n, (Json.integer n).IsIn j → Number.fitsWord n = true) ∧
    ∀ n, (Json.integer n).IsIn j → if Number.fitsWord n
      then ∃ k, Value.ofJson (.integer n) = .integer k ∧ k.toInt = n
      else Value.ofJson (.integer n) = .float (Number.ofInt n) := by
  refine ⟨h.shownAs_rounded, h.rounded_eq_iff, fun n _ => ?_⟩
  split
  · rename_i hfits
    exact ⟨Int64.ofInt n, if_pos hfits, (Number.toInt_ofInt_eq_iff n).2 hfits⟩
  · rename_i hwide
    exact if_neg hwide

/-- The least integer and a wide one, under keys of an object in a list. -/
def leastAndWide : Json :=
  .array [.object [("least", .integer (-2 ^ 63)), ("Wide", .integer (2 ^ 63 + 1))]]

/-- The first of them comes back, and the other one is rounded. -/
theorem least_comes_back : leastAndWide.Distinct ∧
    (Value.ofJson leastAndWide).ShownAs (fun _ => True) leastAndWide.rounded ∧
    leastAndWide.rounded = .array [.object [("least", .integer (-2 ^ 63)),
      ("Wide", .float (Number.ofInt (2 ^ 63 + 1)))]] ∧
    leastAndWide.rounded ≠ leastAndWide := by
  have hdistinct : leastAndWide.Distinct := by
    refine .array fun j hj => ?_
    obtain rfl := List.mem_singleton.1 hj
    refine .object (by decide) fun e he => ?_
    obtain rfl | rfl := List.mem_pair.1 he
    · exact .integer (by decide) (by decide)
    · exact .integer (by decide) (by decide)
  obtain ⟨hshown, hsame, -⟩ := json_comes_back (I := fun _ => True) hdistinct
  refine ⟨hdistinct, hshown, rfl, fun h => ?_⟩
  have hwide := hsame.1 h (2 ^ 63 + 1)
    (.item List.mem_cons_self (.entry (List.mem_cons_of_mem _ List.mem_cons_self) .self))
  exact absurd hwide (by decide)

/-- A wide integer becomes a double that stands for another one, and does not come back. -/
theorem wide_integer_rounded : (Json.integer (2 ^ 63 + 1)).Distinct ∧
    Value.ofJson (.integer (2 ^ 63 + 1)) = .float (Number.ofInt (2 ^ 63 + 1)) ∧
    Number.value? (Number.ofInt (2 ^ 63 + 1)) = some (2 ^ 63) ∧
    ¬ (Value.ofJson (.integer (2 ^ 63 + 1))).ShownAs (fun _ => True) (.integer (2 ^ 63 + 1)) := by
  have hdistinct : (Json.integer (2 ^ 63 + 1)).Distinct := .integer (by decide) (by decide)
  have hexact : Number.exact (Number.ofInt (2 ^ 63 + 1)) = .finite false (2 ^ 52) 11 := by
    decide
  refine ⟨hdistinct, rfl, ?_, fun h => ?_⟩
  · rw [Number.value?_of_exact hexact]
    norm_num
  · have hfloat := Throughout.unique (s := .empty) trivial h hdistinct.shownAs_rounded
    cases hfloat

end Json
end Workbook
