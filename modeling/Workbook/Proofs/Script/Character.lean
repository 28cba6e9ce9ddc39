/-
Positions in texts.

A text is a list of characters for all operations: its length, its elements, what a loop over it visits
and what the empty text splits it into, the parts that `charAt`, `slice` and `substring` take out of it,
and the positions at which `indexOf` finds another text.  How many bytes a character takes is not seen.

Positions are numbers, so a text is supposed to have no more than `Number.exactBound` characters.  Then
its length and all its positions are numbers, each of them one that a double stands for, and the laws
hold for every double that stands for the position (`CharacterLaws`).  A bound of `slice` may be any
integer that is a double, of whatever sign and size.
-/
import Mathlib
import Workbook.Proofs.Iteration
import Workbook.Proofs.Property

namespace Workbook

/-! ## Finding -/

namespace Text

variable {needle : List Char}

/-- What is found is an occurrence, and there is none before it. -/
theorem prefix_of_find? {cs : List Char} {i : Nat} (h : find? needle cs = some i) :
    i + needle.length ≤ cs.length ∧ needle <+: cs.drop i ∧ ∀ j < i, ¬ needle <+: cs.drop j := by
  induction cs generalizing i with
  | nil =>
    unfold find? at h
    split at h
    · next hempty =>
      cases h
      rw [List.isEmpty_iff.1 hempty]
      exact ⟨Nat.le_refl _, List.nil_prefix, nofun⟩
    · cases h
  | cons c cs ih =>
    unfold find? at h
    split at h
    · next hhere =>
      cases h
      have hhere := List.isPrefixOf_iff_prefix.1 hhere
      exact ⟨by simpa using hhere.length_le, hhere, nofun⟩
    · next hhere =>
      obtain ⟨i, hfind, rfl⟩ := Option.map_eq_some_iff.1 h
      obtain ⟨hwithin, hthere, hbefore⟩ := ih hfind
      refine ⟨by rw [List.length_cons]; omega, hthere, fun j hj => ?_⟩
      cases j with
      | zero => exact fun h => hhere (List.isPrefixOf_iff_prefix.2 h)
      | succ j => exact hbefore j (by omega)

/-- Where nothing is found, there is no occurrence. -/
theorem not_prefix_of_find? {cs : List Char} (h : find? needle cs = none) (j : Nat) :
    ¬ needle <+: cs.drop j := by
  induction cs generalizing j with
  | nil =>
    unfold find? at h
    split at h
    · cases h
    · next hempty =>
      rw [List.drop_nil, List.prefix_nil]
      rintro rfl
      exact hempty rfl
  | cons c cs ih =>
    unfold find? at h
    split at h
    · cases h
    · next hhere =>
      cases j with
      | zero => exact fun h => hhere (List.isPrefixOf_iff_prefix.2 h)
      | succ j => exact ih (Option.map_eq_none_iff.1 h) j

end Text

namespace Script

/-! ## Parts -/

/-- Where an integer points to in a sequence of a length: a negative one counts from the end, and one
outside is moved to the nearest end. -/
def pointed (length : Nat) (a : Int) : Nat :=
  (max 0 (min (length : Int) (if a < 0 then length + a else a))).toNat

/-- The characters from one position up to another. -/
def between (cs : List Char) (a b : Int) : List Char :=
  (cs.take (pointed cs.length b)).drop (pointed cs.length a)

/-- Positions behind the end are as good as the end. -/
theorem between_natural (cs : List Char) (i m : Nat) :
    between cs i (i + m : Nat) = (cs.drop i).take m := by
  have hpointed (k : Nat) : pointed cs.length k = min cs.length k := by
    unfold pointed
    omega
  unfold between
  rw [hpointed, hpointed, Nat.min_comm _ (i + m), ← List.take_eq_take_min, List.take_drop]
  obtain hi | hi := Nat.le_total i cs.length
  · rw [Nat.min_eq_right hi]
  · rw [Nat.min_eq_left hi, List.drop_of_length_le (by simp), List.drop_of_length_le (by simp; omega)]

theorem bound_of_value {x : Float} {a : Int} (h : Number.value? x = some (a : ℚ)) (s : Store)
    {length : Nat} (short : length < UInt64.size) (standard : Nat) :
    bound s (.number x) length standard = pointed length a := by
  have hword : UInt64.size = 18446744073709551616 := rfl
  have hclamped : Number.clamped (-UInt64.size) UInt64.size ((Native.number x).toNumber s) =
      max (-(UInt64.size : Int)) (min (UInt64.size : Int) a) := Number.clamped_of_value h _ _
  unfold bound pointed
  simp only [hclamped]
  split <;> split <;> omega

theorem part_eq (cs : List Char) (start stop : Nat) :
    part cs start stop = .string (String.ofList ((cs.take stop).drop start)) := by
  unfold part
  rw [List.drop_take]

/-! ## Laws -/

section

variable (e : Engine) (t : String) (s : Store)

/-- Whether a text is what `slice` takes out of another one from a position on. -/
def OccursAt (u : String) (i : Nat) : Prop :=
  ∃ x y, Number.value? x = some (i : ℚ) ∧ Number.value? y = some ((i + u.length : Nat) : ℚ) ∧
    e.callMethod (.string t) "slice" [.number x, .number y] s = .ok (.string u) s

/-- How a text is described by its characters. -/
structure CharacterLaws : Prop where
  /-- Up to the length, every count is a number. -/
  position : ∀ i ≤ t.toList.length, Number.value? (Number.ofInt i) = some (i : ℚ)
  length : Run.property (.string t) "length" s = .ok (.ofNat t.toList.length) s
  forOf : ∀ fuel run block span how key items body s',
    e.ask (.expression run block items) s' = .ok (.string t) s →
    Iteration.Walks (Iteration.running e run block how key.text body) Iteration.leaves .normal 0
      (t.toList.map .ofChar) s (fun flows => pure (Iteration.loopFlow flows))
      (e.statement fuel run block (.forOf span how key items body) s')
  split : e.callMethod (.string t) "split" [.string ""] s =
    Run.newArray (t.toList.map .ofChar).toArray s
  /-- One character is taken out in five ways. -/
  character : ∀ x y i c, Number.value? x = some ((i : Nat) : ℚ) →
    Number.value? y = some ((i + 1 : Nat) : ℚ) → t.toList[i]? = some c →
    Run.property (.string t) ((Native.number x).text s) s = .ok (.ofChar c) s ∧
    e.callMethod (.string t) "charAt" [.number x] s = .ok (.ofChar c) s ∧
    e.callMethod (.string t) "slice" [.number x, .number y] s = .ok (.ofChar c) s ∧
    e.callMethod (.string t) "substring" [.number x, .number y] s = .ok (.ofChar c) s
  slice : ∀ x y (a b : Int), Number.value? x = some (a : ℚ) → Number.value? y = some (b : ℚ) →
    e.callMethod (.string t) "slice" [.number x, .number y] s =
      .ok (.string (String.ofList (between t.toList a b))) s
  /-- A text is found where it occurs first. -/
  indexOf : ∀ u,
    (∃ i, e.callMethod (.string t) "indexOf" [.string u] s = .ok (.ofNat i) s ∧
      e.callMethod (.string t) "includes" [.string u] s = .ok (.boolean true) s ∧
      OccursAt e t s u i ∧ ∀ j < i, ¬ OccursAt e t s u j) ∨
    e.callMethod (.string t) "indexOf" [.string u] s = .ok (.number (-1)) s ∧
      e.callMethod (.string t) "includes" [.string u] s = .ok (.boolean false) s ∧
      ∀ i, ¬ OccursAt e t s u i

variable {e t s}

theorem slice_run {x y : Float} {a b : Int} (short : t.length ≤ Number.exactBound)
    (hx : Number.value? x = some (a : ℚ)) (hy : Number.value? y = some (b : ℚ)) :
    e.callMethod (.string t) "slice" [.number x, .number y] s =
      .ok (.string (String.ofList (between t.toList a b))) s := by
  have hbound : Number.exactBound = 2 ^ 53 := rfl
  have hshort : t.toList.length < UInt64.size := by
    show t.toList.length < 18446744073709551616
    rw [String.length_toList]
    omega
  show EStateM.Result.ok (part t.toList (bound s (.number x) t.toList.length 0)
    (bound s (.number y) t.toList.length t.toList.length)) s = _
  rw [bound_of_value hx s hshort, bound_of_value hy s hshort, part_eq]
  rfl

theorem ofList_between_iff (u : String) (i : Nat) :
    String.ofList (between t.toList i (i + u.length : Nat)) = u ↔ u.toList <+: t.toList.drop i := by
  rw [between_natural, List.prefix_iff_eq_take, String.length_toList, ← String.toList_inj,
    String.toList_ofList, eq_comm]

theorem prefix_of_occursAt (short : t.length ≤ Number.exactBound) {u : String} {i : Nat}
    (h : OccursAt e t s u i) : u.toList <+: t.toList.drop i := by
  obtain ⟨x, y, hx, hy, hslice⟩ := h
  rw [slice_run (a := i) (b := (i + u.length : Nat)) short hx hy] at hslice
  exact (ofList_between_iff u i).1 (by simpa using hslice)

theorem occursAt_of_prefix (short : t.length ≤ Number.exactBound) {u : String} {i : Nat}
    (within : i + u.length ≤ t.length) (h : u.toList <+: t.toList.drop i) : OccursAt e t s u i := by
  have hx := Number.value?_ofInt (n := i) (by omega)
  have hy := Number.value?_ofInt (n := (i + u.length : Nat)) (by omega)
  refine ⟨_, _, hx, hy, ?_⟩
  rw [slice_run short hx hy, (ofList_between_iff u i).2 h]

theorem ofList_singleton (c : Char) : Native.string (String.ofList [c]) = .ofChar c := by
  unfold Native.ofChar
  rw [Char.toString_eq_singleton, String.singleton_eq_ofList]

theorem charAt_run {x : Float} (h : 0 ≤ x) : e.callMethod (.string t) "charAt" [.number x] s =
    .ok (part t.toList (Number.clamped 0 (UInt64.size - 1) x).toNat
      ((Number.clamped 0 (UInt64.size - 1) x).toNat + 1)) s :=
  congrFun (if_pos h) s

theorem substring_run (x y : Float) :
    e.callMethod (.string t) "substring" [.number x, .number y] s =
      .ok (part t.toList
        (min (Number.clamped 0 t.toList.length x).toNat (Number.clamped 0 t.toList.length y).toNat)
        (max (Number.clamped 0 t.toList.length x).toNat (Number.clamped 0 t.toList.length y).toNat)) s :=
  rfl

theorem indexOf_run (u : String) : e.callMethod (.string t) "indexOf" [.string u] s =
    .ok (match Text.find? u.toList t.toList with
      | some i => .ofNat i
      | none => .number (-1)) s :=
  rfl

theorem includes_run (u : String) : e.callMethod (.string t) "includes" [.string u] s =
    .ok (.boolean (Text.find? u.toList t.toList).isSome) s :=
  rfl

theorem splitParts_empty (cs : List Char) : splitParts s cs [.string ""] = cs.map .ofChar := by
  show ((cs.map fun c => [c]).take (cs.length + 1)).map (fun p => Native.string (String.ofList p)) = _
  rw [List.take_of_length_le (by simp), List.map_map]
  exact List.map_congr_left fun c _ => ofList_singleton c

theorem part_character {cs : List Char} {i : Nat} {c : Char} (h : cs[i]? = some c) :
    part cs i (i + 1) = .ofChar c := by
  unfold part
  rw [Nat.add_sub_cancel_left, List.take_one, List.head?_drop, h]
  exact ofList_singleton c

/-- All operations on a text use the positions of its characters.  Beyond the bound not every position is
a number that scripts have; no memory holds a text of that length. -/
theorem texts_are_lists_of_characters (e : Engine) (s : Store) {t : String}
    (short : t.length ≤ Number.exactBound) : CharacterLaws e t s where
  position i hi := by
    rw [String.length_toList] at hi
    exact_mod_cast Number.value?_ofInt (n := i) (by omega)
  length := by
    rw [String.length_toList]
    rfl
  forOf fuel run block span how key items body s' h := by
    rw [Iteration.statement_forOf e fuel run block span how key body h rfl]
    exact Iteration.walks_pure fun _ _ => rfl
  split := by
    show Run.newArray (splitParts s t.toList [.string ""]).toArray s = _
    rw [splitParts_empty]
  character x y i c hx hy hc := by
    have hword : UInt64.size = 18446744073709551616 := rfl
    have hbound : Number.exactBound = 2 ^ 53 := rfl
    have hi : i < t.toList.length := (List.getElem?_eq_some_iff.1 hc).1
    rw [String.length_toList] at hi
    have hposition := Native.position?_text hx (by omega) s
    have hclamped (hi : Int) (high : i ≤ hi) : (Number.clamped 0 hi x).toNat = i := by
      rw [Number.clamped_of_value (n := i) hx]
      omega
    refine ⟨?_, ?_, ?_, ?_⟩
    · show EStateM.Result.ok (Native.itemProperty _ t.length _) s = _
      unfold Native.itemProperty
      rw [if_neg (Native.ne_length_of_position? hposition), hposition, Option.bind_some, hc]
      rfl
    · have hzero : 0 ≤ x :=
        (Number.le_iff_of_value (Number.value?_ofInt (n := 0) (by decide)) hx).2 (by simp)
      rw [charAt_run hzero, hclamped _ (by omega), part_character hc]
    · rw [slice_run (a := i) (b := (i + 1 : Nat)) short hx hy, between_natural,
        ← Nat.add_sub_cancel_left i 1]
      exact congrArg (EStateM.Result.ok · s) (part_character hc)
    · have hclamped' : (Number.clamped 0 t.toList.length y).toNat = i + 1 := by
        rw [Number.clamped_of_value (n := (i + 1 : Nat)) hy, String.length_toList]
        omega
      rw [substring_run, hclamped _ (by rw [String.length_toList]; omega), hclamped',
        Nat.min_eq_left (by omega), Nat.max_eq_right (by omega), part_character hc]
  slice x y a b hx hy := slice_run short hx hy
  indexOf u := by
    rw [indexOf_run, includes_run]
    cases hfind : Text.find? u.toList t.toList with
    | some i =>
      obtain ⟨hwithin, hthere, hbefore⟩ := Text.prefix_of_find? hfind
      rw [String.length_toList, String.length_toList] at hwithin
      exact .inl ⟨i, rfl, rfl, occursAt_of_prefix short hwithin hthere, fun j hj h =>
        hbefore j hj (prefix_of_occursAt short h)⟩
    | none =>
      exact .inr ⟨rfl, rfl, fun i h =>
        Text.not_prefix_of_find? hfind i (prefix_of_occursAt short h)⟩

end

/-- Characters of two and of four bytes are one position each. -/
theorem wide_characters_are_positions :
    "é😀x".length ≤ Number.exactBound ∧ CharacterLaws Engine.standard "é😀x" Store.empty ∧
    Engine.standard.callMethod (.string "é😀x") "charAt" [.number (Number.ofInt 2)] Store.empty =
      .ok (.string "x") Store.empty ∧
    Engine.standard.callMethod (.string "é😀x") "slice"
      [.number (Number.ofInt (-2)), .number (Number.ofInt 2)] Store.empty =
        .ok (.string "😀") Store.empty := by
  have laws : CharacterLaws Engine.standard "é😀x" Store.empty :=
    texts_are_lists_of_characters Engine.standard Store.empty (by decide)
  have hvalue (n : Int) (h : n.natAbs ≤ 3) : Number.value? (Number.ofInt n) = some (n : ℚ) :=
    Number.value?_ofInt (h.trans (by decide))
  refine ⟨by decide, laws, ?_, ?_⟩
  · exact (laws.character _ _ 2 'x' (hvalue 2 (by decide)) (hvalue 3 (by decide)) rfl).2.1
  · exact laws.slice _ _ (-2) 2 (hvalue (-2) (by decide)) (hvalue 2 (by decide))

end Script
end Workbook
