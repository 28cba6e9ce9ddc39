/-
The order of doubles.

A finite double stands for a rational number (`value?`).  Its digits say which one in one way only,
as large an exponent as there is room for (`exact_canonical`), so doubles are compared by exponents
first and mantissas then, and that is the order of the numbers (`compare?_eq`).  The infinite ones lie
beyond all others.

Rounding an integer to a double takes it past no double: the result is on the same side of every double
as the integer, or it is that double (`compare?_ofInt`).
-/
import Mathlib
import Workbook.Proofs.Number

open Float.Model (Format UnpackedFloat)

namespace Workbook
namespace Number

/-! ## Values -/

namespace Exact

/-- The number that a finite double stands for. -/
def value? : Exact → Option ℚ
  | .finite negative m e => some (if negative then -(m * 2 ^ e) else m * 2 ^ e)
  | _ => none

/-- Mantissa and exponent as a double has them: 53 binary digits, and fewer with the least exponent
only. -/
structure Digits (m : Nat) (e : Int) : Prop where
  few : m < 2 ^ 53
  least : -1074 ≤ e
  most : e ≤ 971
  full : e = -1074 ∨ 2 ^ 52 ≤ m

/-- What the digits of a double can say. -/
def Canonical : Exact → Prop
  | .finite _ m e => Digits m e
  | _ => True

/-- A double in the form in which doubles are compared. -/
def unpacked : Exact → UnpackedFloat
  | .nan => .notANumber
  | .infinite negative => .infinity (signOf negative)
  | .finite negative m e =>
    if h : m = 0 then .zero (signOf negative)
    else .finite (signOf negative) m e (Nat.pos_of_ne_zero h)

theorem unpacked_zero (negative : Bool) (e : Int) :
    (finite negative 0 e).unpacked = .zero (signOf negative) :=
  rfl

theorem unpacked_pos (negative : Bool) {m m' : Nat} {e e' : Int} (pos : 0 < m) (hm : m = m')
    (he : e = e') : .finite (signOf negative) m e pos = (finite negative m' e').unpacked := by
  subst hm he
  unfold Exact.unpacked
  simp only [dif_neg (Nat.ne_of_gt pos)]

end Exact

/-- The number that a double stands for, if it is finite. -/
def value? (x : Float) : Option ℚ :=
  (exact x).value?

theorem value?_of_exact {x : Float} {negative : Bool} {m : Nat} {e : Int}
    (h : exact x = .finite negative m e) :
    value? x = some (if negative then -(m * 2 ^ e : ℚ) else m * 2 ^ e) := by
  unfold value?
  rw [h]
  rfl

/-! ## Bits -/

/-- The binary digits of a double. -/
def bits (x : Float) : BitVec Format.binary64.numBits :=
  x.toModel.toBits.toBitVec

/-- The exponent of a double, as its digits have it. -/
def field (x : Float) : BitVec 11 :=
  UnpackedFloat.unpackExponent (bits x)

/-- The mantissa of a double, without the digit that is always there. -/
def fraction (x : Float) : BitVec 52 :=
  UnpackedFloat.unpackMantissa (bits x)

/-- The parts of a double. -/
theorem exists_layout (x : Float) :
    ∃ negative, UnpackedFloat.Sign.ofBitVec (UnpackedFloat.unpackSign (bits x)) = signOf negative ∧
      x.toBits.toNat = layoutBits negative (field x).toNat (fraction x).toNat := by
  have hparts := UnpackedFloat.packComponents_unpackSign_unpackExponent_unpackMantissa (bits x)
  obtain ⟨negative, hsign⟩ : ∃ negative,
      UnpackedFloat.Sign.ofBitVec (UnpackedFloat.unpackSign (bits x)) = signOf negative := by
    cases UnpackedFloat.Sign.ofBitVec (UnpackedFloat.unpackSign (bits x)) with
    | negative => exact ⟨true, rfl⟩
    | positive => exact ⟨false, rfl⟩
  refine ⟨negative, hsign, ?_⟩
  rw [hsign] at hparts
  rw [← packComponents_toNat]
  exact congrArg BitVec.toNat hparts.symm

theorem exact_canonical (x : Float) : (exact x).Canonical := by
  obtain ⟨negative, -, hlayout⟩ := exists_layout x
  have hfield : (field x).toNat < 2048 := (field x).isLt
  have hfraction : (fraction x).toNat < 2 ^ 52 := (fraction x).isLt
  rw [exact_of_layout hfield hfraction hlayout]
  split
  · split <;> trivial
  · split
    · exact ⟨by omega, by omega, by omega, .inl rfl⟩
    · exact ⟨by omega, by omega, by omega, .inr (by omega)⟩

/-- The digits of a double that stands for a number. -/
theorem exists_digits {x : Float} {q : ℚ} (h : value? x = some q) :
    ∃ (negative : Bool) (m : Nat) (e : Int), exact x = .finite negative m e ∧ Exact.Digits m e ∧
      q = if negative then -(m * 2 ^ e : ℚ) else m * 2 ^ e := by
  have hcanonical := exact_canonical x
  have hvalue : (exact x).value? = some q := h
  cases hx : exact x with
  | nan => simp [hx, Exact.value?] at hvalue
  | infinite => simp [hx, Exact.value?] at hvalue
  | finite negative m e =>
    rw [hx] at hcanonical hvalue
    exact ⟨negative, m, e, rfl, hcanonical, (Option.some.inj hvalue).symm⟩

/-- Doubles are unpacked into what they stand for. -/
theorem unpack_eq (x : Float) : x.toModel.unpack = (exact x).unpacked := by
  obtain ⟨negative, hsign, hlayout⟩ := exists_layout x
  have hfield : (field x).toNat < 2048 := (field x).isLt
  have hfraction : (fraction x).toNat < 2 ^ 52 := (fraction x).isLt
  have hall : UnpackedFloat.unpackExponent (bits x) = -1#11 ↔ (field x).toNat = 2047 :=
    BitVec.toNat_inj.symm
  have hnone : UnpackedFloat.unpackExponent (bits x) = 0#11 ↔ (field x).toNat = 0 :=
    BitVec.toNat_inj.symm
  have hzero : UnpackedFloat.unpackMantissa (bits x) = 0#52 ↔ (fraction x).toNat = 0 :=
    BitVec.toNat_inj.symm
  rw [exact_of_layout hfield hfraction hlayout]
  show UnpackedFloat.unpack .binary64 (bits x) = _
  unfold UnpackedFloat.unpack
  simp only [hsign]
  by_cases hlast : (field x).toNat = 2047
  · rw [if_pos (hall.2 hlast), if_pos hlast]
    by_cases hf : (fraction x).toNat = 0
    · rw [if_pos (hzero.2 hf), if_pos hf]
      rfl
    · rw [if_neg (mt hzero.1 hf), if_neg hf]
      rfl
  · rw [if_neg (mt hall.1 hlast), if_neg hlast]
    by_cases hfirst : (field x).toNat = 0
    · rw [if_pos (hnone.2 hfirst), if_pos hfirst]
      by_cases hf : (fraction x).toNat = 0
      · rw [dif_pos (hzero.2 hf), hf]
        rfl
      · rw [dif_neg (mt hzero.1 hf)]
        refine Exact.unpacked_pos negative _ rfl ?_
        show ((field x).toNat : Int) - (1023 + 52) + 1 = -1074
        omega
    · rw [if_neg (mt hnone.1 hfirst), if_neg hfirst]
      refine Exact.unpacked_pos negative _ ?_ ?_
      · show (1#1 ++ fraction x).toNat = _
        rw [BitVec.toNat_append, ← Nat.shiftLeft_add_eq_or_of_lt hfraction, Nat.shiftLeft_eq]
        rfl
      · show ((field x).toNat : Int) - (1023 + 52) = (field x).toNat - 1075
        omega

/-! ## Whole numbers -/

namespace Exact

variable {m : Nat} {e : Int}

/-- What has no fraction is its integer part. -/
theorem value_of_isWhole (h : isWhole m e = true) : (m * 2 ^ e : ℚ) = whole m e := by
  unfold isWhole at h
  unfold whole
  by_cases he : e < 0
  · obtain ⟨j, rfl⟩ : ∃ j : Nat, e = -j := ⟨(-e).toNat, by omega⟩
    rw [if_pos he, beq_iff_eq, Nat.one_shiftLeft, neg_neg, Int.toNat_natCast] at h
    obtain ⟨n, rfl⟩ := Nat.dvd_of_mod_eq_zero h
    rw [if_pos he, neg_neg, Int.toNat_natCast, Nat.shiftRight_eq_div_pow,
      Nat.mul_div_cancel_left _ (by positivity), zpow_neg, zpow_natCast]
    push_cast
    field_simp
  · rw [if_neg he, Nat.shiftLeft_eq]
    conv_lhs => rw [show e = (e.toNat : Int) by omega]
    push_cast
    rw [zpow_natCast]

/-- An integer has no fraction and is its own integer part. -/
theorem isWhole_of_value {n : Nat} (h : (m * 2 ^ e : ℚ) = n) : isWhole m e = true ∧ whole m e = n := by
  have hwhole : isWhole m e = true := by
    unfold isWhole
    by_cases he : e < 0
    · obtain ⟨j, rfl⟩ : ∃ j : Nat, e = -j := ⟨(-e).toNat, by omega⟩
      rw [zpow_neg, zpow_natCast, mul_inv_eq_iff_eq_mul₀ (by positivity)] at h
      have hm : m = n * 2 ^ j := by exact_mod_cast h
      rw [if_pos he, beq_iff_eq, Nat.one_shiftLeft, neg_neg, Int.toNat_natCast, hm, Nat.mul_mod_left]
    · rw [if_neg he]
  have hvalue := value_of_isWhole hwhole
  rw [h] at hvalue
  exact ⟨hwhole, by exact_mod_cast hvalue.symm⟩

end Exact

/-- A double that stands for an integer has no fraction, and the integer is its integer part. -/
theorem exists_whole {x : Float} {n : Int} (h : value? x = some (n : ℚ)) :
    ∃ (negative : Bool) (m : Nat) (e : Int), exact x = .finite negative m e ∧
      Exact.isWhole m e = true ∧ Exact.whole m e = n.natAbs ∧
      n = if negative then -(Exact.whole m e : Int) else Exact.whole m e := by
  obtain ⟨negative, m, e, hexact, -, hn⟩ := exists_digits h
  have hpos : (0 : ℚ) ≤ m * 2 ^ e := by positivity
  have habs : (m * 2 ^ e : ℚ) = n.natAbs := by
    rw [Nat.cast_natAbs, Int.cast_abs, hn]
    cases negative <;> simp
  obtain ⟨hwhole, hpart⟩ := Exact.isWhole_of_value habs
  refine ⟨negative, m, e, hexact, hwhole, hpart, ?_⟩
  rw [habs] at hn
  rw [hpart]
  cases negative with
  | false => exact Int.cast_injective (α := ℚ) (by simpa using hn)
  | true => exact Int.cast_injective (α := ℚ) (by simpa using hn)

theorem truncated?_of_value {x : Float} {n : Int} (h : value? x = some (n : ℚ)) :
    isIntegral x = true ∧ truncated? x = some n := by
  obtain ⟨negative, m, e, hexact, hwhole, -, hn⟩ := exists_whole h
  unfold isIntegral truncated?
  rw [hexact]
  exact ⟨hwhole, congrArg some hn.symm⟩

/-- An integer is kept between two bounds as it is. -/
theorem clamped_of_value {x : Float} {n : Int} (h : value? x = some (n : ℚ)) (lo hi : Int) :
    clamped lo hi x = max lo (min hi n) := by
  obtain ⟨negative, m, e, hexact, -, -, hn⟩ := exists_whole h
  unfold clamped
  rw [hexact]
  simp only [← hn]

/-- An integer up to the bound is the number that its double stands for. -/
theorem value?_ofInt {n : Int} (bound : n.natAbs ≤ exactBound) : value? (ofInt n) = some (n : ℚ) := by
  obtain ⟨m, e, hexact, hwhole, hm⟩ := exact_ofInt bound
  rw [value?_of_exact hexact, Exact.value_of_isWhole hwhole, hm]
  by_cases negative : n < 0
  · simp [negative, abs_of_neg negative]
  · simp [negative, abs_of_nonneg (not_lt.1 negative)]

/-! ## Order -/

namespace Exact

variable {m m' : Nat} {e e' : Int} {p q : ℚ}

/-- A larger exponent makes a larger number. -/
theorem Digits.lt (h : Digits m e) (h' : Digits m' e') (he : e < e') :
    (m * 2 ^ e : ℚ) < m' * 2 ^ e' := by
  have hfull : 2 ^ 52 ≤ m' := h'.full.resolve_left (by have := h.least; omega)
  have hm : (m : ℚ) < 2 ^ 53 := by exact_mod_cast h.few
  have hm' : (2 ^ 52 : ℚ) ≤ m' := by exact_mod_cast hfull
  calc (m * 2 ^ e : ℚ) < 2 ^ 53 * 2 ^ e := by gcongr
    _ = 2 ^ 52 * 2 ^ (e + 1) := by rw [zpow_add_one₀ two_ne_zero]; ring
    _ ≤ 2 ^ 52 * 2 ^ e' := by gcongr; exacts [one_le_two, he]
    _ ≤ m' * 2 ^ e' := by gcongr

theorem Digits.compare_eq (h : Digits m e) (h' : Digits m' e') :
    (compare e e').then (compare m m') = compare (m * 2 ^ e : ℚ) (m' * 2 ^ e') := by
  obtain he | rfl | he := lt_trichotomy e e'
  · rw [compare_lt_iff_lt.2 he, compare_lt_iff_lt.2 (h.lt h' he)]
    rfl
  · have hpos : (0 : ℚ) < 2 ^ e := by positivity
    rw [compare_eq_iff_eq.2 rfl]
    show compare m m' = _
    obtain hm | rfl | hm := lt_trichotomy m m'
    · rw [compare_lt_iff_lt.2 hm, compare_lt_iff_lt.2]
      gcongr
    · rw [compare_eq_iff_eq.2 rfl, compare_eq_iff_eq.2 rfl]
    · rw [compare_gt_iff_gt.2 hm, compare_gt_iff_gt.2]
      gcongr
  · rw [compare_gt_iff_gt.2 he, compare_gt_iff_gt.2 (h'.lt h he)]
    rfl

theorem compare_neg (p q : ℚ) : compare (-p) (-q) = (compare p q).swap := by
  obtain h | rfl | h := lt_trichotomy p q
  · rw [compare_lt_iff_lt.2 h, compare_gt_iff_gt.2 (neg_lt_neg h)]
    rfl
  · rw [compare_eq_iff_eq.2 rfl, compare_eq_iff_eq.2 rfl]
    rfl
  · rw [compare_gt_iff_gt.2 h, compare_lt_iff_lt.2 (neg_lt_neg h)]
    rfl

/-- Finite doubles are compared as the numbers that they stand for. -/
theorem compare_finite {negative negative' : Bool} (h : Digits m e) (h' : Digits m' e')
    (hp : (finite negative m e).value? = some p) (hq : (finite negative' m' e').value? = some q) :
    (finite negative m e).unpacked.compare (finite negative' m' e').unpacked =
      some (compare p q) := by
  simp only [value?, Option.some.injEq] at hp hq
  subst hp hq
  obtain rfl | hm := Nat.eq_zero_or_pos m <;> obtain rfl | hm' := Nat.eq_zero_or_pos m'
  · rw [unpacked_zero, unpacked_zero, compare_eq_iff_eq.2 (by simp)]
    rfl
  · have hpos : (0 : ℚ) < m' * 2 ^ e' := by positivity
    rw [unpacked_zero, ← unpacked_pos negative' hm' rfl rfl]
    cases negative' with
    | false => rw [compare_lt_iff_lt.2 (by simpa using hpos)]; rfl
    | true => rw [compare_gt_iff_gt.2 (by simpa using hpos)]; rfl
  · have hpos : (0 : ℚ) < m * 2 ^ e := by positivity
    rw [unpacked_zero, ← unpacked_pos negative hm rfl rfl]
    cases negative with
    | false => rw [compare_gt_iff_gt.2 (by simpa using hpos)]; rfl
    | true => rw [compare_lt_iff_lt.2 (by simpa using hpos)]; rfl
  · have hpos : (0 : ℚ) < m * 2 ^ e := by positivity
    have hpos' : (0 : ℚ) < m' * 2 ^ e' := by positivity
    rw [← unpacked_pos negative hm rfl rfl, ← unpacked_pos negative' hm' rfl rfl]
    have hcompare := h.compare_eq h'
    cases negative <;> cases negative'
    · exact congrArg some hcompare
    · simp only [if_true, Bool.false_eq_true, if_false]
      rw [compare_gt_iff_gt.2 (by linarith)]
      rfl
    · simp only [if_true, Bool.false_eq_true, if_false]
      rw [compare_lt_iff_lt.2 (by linarith)]
      rfl
    · simp only [if_true, compare_neg, ← hcompare]
      rfl

theorem compare_unpacked {x y : Exact} (hx : x.Canonical) (hy : y.Canonical) (hp : x.value? = some p)
    (hq : y.value? = some q) : x.unpacked.compare y.unpacked = some (compare p q) := by
  cases x with
  | nan => cases hp
  | infinite => cases hp
  | finite =>
    cases y with
    | nan => cases hq
    | infinite => cases hq
    | finite => exact compare_finite hx hy hp hq

/-- What is infinite lies beyond all numbers. -/
theorem compare_infinite {x : Exact} (hq : x.value? = some q) (negative : Bool) :
    (infinite negative).unpacked.compare x.unpacked = some (if negative then .lt else .gt) ∧
      x.unpacked.compare (infinite negative).unpacked = some (if negative then .gt else .lt) := by
  cases x with
  | nan => cases hq
  | infinite => cases hq
  | finite negative' m e =>
    obtain rfl | pos := Nat.eq_zero_or_pos m
    · rw [unpacked_zero]
      cases negative <;> exact ⟨rfl, rfl⟩
    · rw [← unpacked_pos negative' pos rfl rfl]
      cases negative <;> cases negative' <;> exact ⟨rfl, rfl⟩

end Exact

variable {x y : Float} {p q : ℚ}

theorem lt_iff (x y : Float) :
    x < y ↔ (x.toModel.unpack.compare y.toModel.unpack == some .lt) = true :=
  decide_eq_true_iff (p := x.toModel < y.toModel)

/-- Two doubles are compared by comparing what they stand for. -/
theorem compare?_of_unpacked {o : Ordering}
    (h : (exact x).unpacked.compare (exact y).unpacked = some o)
    (h' : (exact y).unpacked.compare (exact x).unpacked = some o.swap) :
    compare? x y = some o ∧ (x == y) = (o == .eq) := by
  rw [← unpack_eq, ← unpack_eq] at h h'
  have hlt := lt_iff x y
  have hgt := lt_iff y x
  have heq : (x == y) = (x.toModel.unpack.compare y.toModel.unpack == some .eq) := rfl
  rw [h] at hlt heq
  rw [h'] at hgt
  unfold compare?
  cases o <;> simp_all

/-- The order of finite doubles is that of the numbers that they stand for. -/
theorem compare?_eq (hp : value? x = some p) (hq : value? y = some q) :
    compare? x y = some (compare p q) ∧ (x == y) = (compare p q == .eq) := by
  have h := Exact.compare_unpacked (exact_canonical x) (exact_canonical y) hp hq
  have h' := Exact.compare_unpacked (exact_canonical y) (exact_canonical x) hq hp
  rw [Std.OrientedOrd.eq_swap (a := q)] at h'
  exact compare?_of_unpacked h h'

/-- The infinite doubles are the first and the last one. -/
theorem compare?_infinite {negative : Bool} (hx : exact x = .infinite negative)
    (hq : value? y = some q) :
    (compare? x y = some (if negative then .lt else .gt) ∧
      compare? y x = some (if negative then .gt else .lt)) ∧ (x == y) = false ∧ (y == x) = false := by
  obtain ⟨h, h'⟩ := Exact.compare_infinite hq negative
  rw [← hx] at h h'
  cases negative
  · obtain ⟨hc, he⟩ := compare?_of_unpacked h h'
    obtain ⟨hc', he'⟩ := compare?_of_unpacked h' h
    exact ⟨⟨hc, hc'⟩, he, he'⟩
  · obtain ⟨hc, he⟩ := compare?_of_unpacked h h'
    obtain ⟨hc', he'⟩ := compare?_of_unpacked h' h
    exact ⟨⟨hc, hc'⟩, he, he'⟩

/-- Equal doubles stand for the same number. -/
theorem value?_of_beq (h : (x == y) = true) : value? x = value? y := by
  have hpositive : exact 0 = .finite false 0 (-1074) := rfl
  have hnegative : exact (-0) = .finite true 0 (-1074) := rfl
  have hzero : value? 0 = value? (-0) := by
    rw [value?_of_exact hpositive, value?_of_exact hnegative]
    simp
  obtain ⟨-, -, rfl | ⟨rfl, rfl⟩ | ⟨rfl, rfl⟩⟩ := Float.beq_iff_ne_nan_and_eq.1 h
  · rfl
  · exact hzero
  · exact hzero.symm

theorem le_iff_of_value (hp : value? x = some p) (hq : value? y = some q) : x ≤ y ↔ p ≤ q := by
  have hle : x ≤ y ↔ (x.toModel.unpack.compare y.toModel.unpack).any (·.isLE) = true :=
    decide_eq_true_iff (p := x.toModel ≤ y.toModel)
  rw [hle, unpack_eq, unpack_eq,
    Exact.compare_unpacked (exact_canonical x) (exact_canonical y) hp hq, ← compare_le_iff_le]
  exact Ordering.isLE_iff_ne_gt

/-- Which double stands for a number, other than zero. -/
theorem eq_of_value (hx : value? x = some q) (hy : value? y = some q) (h : q ≠ 0) : x = y := by
  have heq := (compare?_eq hx hy).2
  rw [compare_eq_iff_eq.2 rfl] at heq
  have hzero : exact 0 = .finite false 0 (-1074) := rfl
  obtain ⟨-, -, rfl | ⟨rfl, rfl⟩ | ⟨rfl, rfl⟩⟩ := Float.beq_iff_ne_nan_and_eq.1 heq
  · rfl
  · rw [value?_of_exact hzero] at hx
    exact absurd (by simpa using hx.symm) h
  · rw [value?_of_exact hzero] at hy
    exact absurd (by simpa using hy.symm) h

/-! ## Rounding -/

/-- Whether a number is rounded past no double. -/
def Nearby (p r : ℚ) : Prop :=
  ∀ m e, Exact.Digits m e → (p ≤ m * 2 ^ e → r ≤ m * 2 ^ e) ∧ (m * 2 ^ e ≤ p → m * 2 ^ e ≤ r)

/-- What 53 bits can stand for at one place, the 53rd bit of a number at a higher place is more than. -/
theorem lt_of_place_lt {a : Nat} {b k : Int} (few : a < 2 ^ 53) (h : b < k) :
    (a * 2 ^ b : ℚ) < 2 ^ 52 * 2 ^ k := by
  have hfew : (a : ℚ) < 2 ^ 53 := by exact_mod_cast few
  calc (a * 2 ^ b : ℚ) < 2 ^ 53 * 2 ^ b := by gcongr
    _ = 2 ^ 52 * 2 ^ (b + 1) := by rw [zpow_add_one₀ two_ne_zero]; ring
    _ ≤ 2 ^ 52 * 2 ^ k := by gcongr; exacts [one_le_two, by omega]

/-- A number without its last bits is rounded past no multiple of what the last of the others stands
for. -/
theorem div_nearby_mul {m r k : Nat} (down : m / 2 ^ k ≤ r) (up : r ≤ m / 2 ^ k + 1)
    (whole : m % 2 ^ k = 0 → r = m / 2 ^ k) (c : Nat) :
    (m ≤ c * 2 ^ k → r * 2 ^ k ≤ c * 2 ^ k) ∧ (c * 2 ^ k ≤ m → c * 2 ^ k ≤ r * 2 ^ k) := by
  have hk : 0 < 2 ^ k := by positivity
  refine ⟨fun hle => Nat.mul_le_mul_right _ ?_, fun hle => Nat.mul_le_mul_right _ ?_⟩
  · by_cases hmod : m % 2 ^ k = 0
    · rw [whole hmod]
      exact Nat.div_le_of_le_mul (by rwa [Nat.mul_comm])
    · have hne : m ≠ c * 2 ^ k := by
        rintro rfl
        exact hmod (Nat.mul_mod_left _ _)
      have hlt : m / 2 ^ k < c := (Nat.div_lt_iff_lt_mul hk).2 (by omega)
      omega
  · exact ((Nat.le_div_iff_mul_le hk).2 hle).trans down

/-- A number is near its first 53 bits, rounded up or down unless the others are all zero. -/
theorem nearby_of_shiftRight {m r k : Nat} (low : 2 ^ (52 + k) ≤ m) (down : m >>> k ≤ r)
    (up : r ≤ m >>> k + 1) (whole : m % 2 ^ k = 0 → r = m >>> k) : Nearby m (r * 2 ^ (k : Int)) := by
  intro a e h
  rw [Nat.shiftRight_eq_div_pow] at down up whole
  by_cases he : (k : Int) ≤ e
  · -- the double is a multiple of what the last of the bits stands for
    obtain ⟨j, rfl⟩ := Int.le.dest he
    have hvalue : (a * 2 ^ ((k : Int) + j) : ℚ) = ((a * 2 ^ j * 2 ^ k : Nat) : ℚ) := by
      rw [zpow_add₀ two_ne_zero]
      push_cast
      simp only [zpow_natCast]
      ring
    have hrounded : (r * 2 ^ (k : Int) : ℚ) = ((r * 2 ^ k : Nat) : ℚ) := by
      push_cast
      rw [zpow_natCast]
    rw [hvalue, hrounded, Nat.cast_le, Nat.cast_le, Nat.cast_le, Nat.cast_le]
    exact div_nearby_mul down up whole _
  · -- the double has fewer digits than the number
    have hbelow : (a * 2 ^ e : ℚ) < 2 ^ 52 * 2 ^ (k : Int) := lt_of_place_lt h.few (by omega)
    have hlow : (2 ^ 52 * 2 ^ (k : Int) : ℚ) ≤ m := by
      rw [zpow_natCast, ← pow_add]
      exact_mod_cast low
    have hdown : (2 ^ 52 : ℚ) ≤ r := by
      have : 2 ^ 52 ≤ m / 2 ^ k := (Nat.le_div_iff_mul_le (by positivity)).2 (by rwa [← Nat.pow_add])
      exact_mod_cast this.trans down
    refine ⟨fun hle => absurd (hlow.trans hle) (not_le.2 hbelow), fun _ => hbelow.le.trans ?_⟩
    gcongr

/-- An integer is rounded past no double. -/
theorem exists_round_nearby (sign : UnpackedFloat.Sign) {m : Nat} (pos : 0 < m) :
    ∃ (m' : Nat) (e' : Int) (pos' : 0 < m'),
      UnpackedFloat.round .binary64 sign m 0 = .finite sign m' e' pos' ∧
      2 ^ 52 ≤ m' ∧ m' < 2 ^ 53 ∧ -52 ≤ e' ∧ Nearby m (m' * 2 ^ e') := by
  by_cases high : m < 2 ^ 53
  · obtain ⟨hlog, low, high'⟩ := shiftLeft_log2_bounds pos high
    refine ⟨_, _, by omega, round_natural sign pos high (by omega), low, high', by omega, ?_⟩
    have hsame : ((m <<< (52 - m.log2) : Nat) * 2 ^ ((m.log2 : Int) - 52) : ℚ) = m := by
      rw [Nat.shiftLeft_eq, show (m.log2 : Int) - 52 = -((52 - m.log2 : Nat) : Int) by omega]
      push_cast
      rw [zpow_neg, zpow_natCast]
      field_simp
    rw [hsame]
    exact fun _ _ _ => ⟨id, id⟩
  · have low : 52 ≤ m.log2 := (Nat.le_log2 (by omega)).2 (by omega)
    obtain ⟨r, m', e', pos', hround, hlow, hhigh, he, hvalue, down, up, whole⟩ :=
      exists_roundWithAccuracy sign (e := 0) low (by omega)
    have hbits : 2 ^ (52 + (m.log2 - 52)) ≤ m := by
      rw [Nat.add_sub_cancel' low]
      exact Nat.log2_self_le (by omega)
    refine ⟨m', e', pos', (round_of_long sign low (by omega)).trans hround, hlow, hhigh, by omega, ?_⟩
    rw [hvalue, zero_add]
    exact nearby_of_shiftRight hbits down up whole

/-- The double of an integer is near it, or infinite if no double is as large. -/
theorem exact_ofInt_nearby {n : Int} (h : n ≠ 0) :
    (∃ m e, exact (ofInt n) = .finite (n < 0) m e ∧ Nearby n.natAbs (m * 2 ^ e)) ∨
      exact (ofInt n) = .infinite (n < 0) ∧ ∀ m e, Exact.Digits m e → (m * 2 ^ e : ℚ) < n.natAbs := by
  obtain ⟨m, e, pos, hround, low, high, least, hnear⟩ :=
    exists_round_nearby (signOf (n < 0)) (Int.natAbs_pos.2 h)
  have hbits : (ofInt n).toBits.toNat =
      (UnpackedFloat.pack .binary64 (.finite (signOf (n < 0)) m e pos)).toNat := by
    rw [← hround]
    rfl
  by_cases most : e ≤ 971
  · rw [pack_toNat pos low high (by omega) most] at hbits
    refine .inl ⟨m, e, ?_, hnear⟩
    rw [exact_of_toNat (by omega) (by omega) (by omega) hbits, Nat.add_sub_cancel' low]
    congr 1
    omega
  · have hinfinite : UnpackedFloat.pack .binary64 (.finite (signOf (n < 0)) m e pos) =
        UnpackedFloat.packedInfinity .binary64 (signOf (n < 0)) := by
      refine if_pos ?_
      show 2 ^ 11 ≤ (e + 1023 + 52).toNat + 1
      omega
    have hlayout : (ofInt n).toBits.toNat = layoutBits (n < 0) 2047 0 := by
      rw [hbits, hinfinite]
      exact packComponents_toNat _ _ _
    refine .inr ⟨exact_of_layout (by omega) (by omega) hlayout, fun a b hab => ?_⟩
    have hlow : (2 ^ 52 : ℚ) ≤ m := by exact_mod_cast low
    have hplace : (a * 2 ^ b : ℚ) < 2 ^ 52 * 2 ^ e :=
      lt_of_place_lt hab.few (by have := hab.most; omega)
    have hbeyond : (a * 2 ^ b : ℚ) < m * 2 ^ e := hplace.trans_le (by gcongr)
    exact lt_of_not_ge fun hle => absurd ((hnear a b hab).1 hle) (not_le.2 hbeyond)

/-- A double on the same side as an integer, or equal: that decides how it compares. -/
theorem compare_of_nearby {p r q : ℚ} (below : p ≤ q → r ≤ q) (above : q ≤ p → q ≤ r) :
    compare r q = if compare r q == .eq then .eq else compare p q := by
  obtain h | rfl | h := lt_trichotomy r q
  · rw [compare_lt_iff_lt.2 h, compare_lt_iff_lt.2 (lt_of_not_ge fun hle => not_lt.2 (above hle) h)]
    rfl
  · rw [compare_eq_iff_eq.2 rfl]
    rfl
  · rw [compare_gt_iff_gt.2 h, compare_gt_iff_gt.2 (lt_of_not_ge fun hle => not_lt.2 (below hle) h)]
    rfl

section

variable {n : Int} {x : Float} {p q : ℚ}

theorem natAbs_eq_ite : ((n.natAbs : ℕ) : ℚ) = if n < 0 then -(n : ℚ) else n := by
  by_cases negative : n < 0
  · simp [negative, abs_of_neg negative]
  · simp [negative, abs_of_nonneg (not_lt.1 negative)]

/-- With its sign, too, what is near an integer is past no double: where the signs differ, zero is in
between. -/
theorem signed_nearby (h : n ≠ 0) (hp : 0 ≤ p) (near : Nearby n.natAbs p) (hq : value? x = some q) :
    (n ≤ q → (if n < 0 then -p else p) ≤ q) ∧ (q ≤ n → q ≤ if n < 0 then -p else p) := by
  obtain ⟨negative, a, b, -, hdigits, rfl⟩ := exists_digits hq
  have hpos : (0 : ℚ) ≤ a * 2 ^ b := by positivity
  obtain ⟨below, above⟩ := near a b hdigits
  rw [natAbs_eq_ite] at below above
  by_cases hn : n < 0
  · have hn' : (n : ℚ) < 0 := by exact_mod_cast hn
    rw [if_pos hn] at below above ⊢
    cases negative with
    | true => exact ⟨fun hle => by simpa using above (by simpa using neg_le_neg hle),
        fun hle => by simpa using below (by simpa using neg_le_neg hle)⟩
    | false => exact ⟨fun _ => by simp only [Bool.false_eq_true, if_false]; linarith,
        fun hle => by simp only [Bool.false_eq_true, if_false] at hle; linarith⟩
  · have hn' : (0 : ℚ) < n := by exact_mod_cast (show 0 < n by omega)
    rw [if_neg hn] at below above ⊢
    cases negative with
    | true => exact ⟨fun hle => by simp only [if_true] at hle; linarith,
        fun _ => by simp only [if_true]; linarith⟩
    | false => exact ⟨below, above⟩

/-- What is larger than all doubles is so with its sign. -/
theorem signed_beyond (beyond : ∀ m e, Exact.Digits m e → (m * 2 ^ e : ℚ) < n.natAbs)
    (hq : value? x = some q) : if n < 0 then (n : ℚ) < q else q < n := by
  obtain ⟨negative, a, b, -, hdigits, rfl⟩ := exists_digits hq
  have hpos : (0 : ℚ) ≤ a * 2 ^ b := by positivity
  have hlt := beyond a b hdigits
  rw [natAbs_eq_ite] at hlt
  by_cases hn : n < 0
  · rw [if_pos hn] at hlt ⊢
    split <;> linarith
  · rw [if_neg hn] at hlt ⊢
    split <;> linarith

end

/-- The double of an integer stands for a number near it, or is infinite and so beyond all that are
as large. -/
theorem ofInt_nearby (n : Int) :
    (∃ r, value? (ofInt n) = some r ∧
      ∀ x q, value? x = some q → (n ≤ q → r ≤ q) ∧ (q ≤ n → q ≤ r)) ∨
    exact (ofInt n) = .infinite (n < 0) ∧
      ∀ x q, value? x = some q → if n < 0 then (n : ℚ) < q else q < n := by
  by_cases h : n = 0
  · subst h
    exact .inl ⟨_, value?_ofInt (Nat.zero_le _), fun _ _ _ => ⟨id, id⟩⟩
  · obtain ⟨m, e, hexact, hnear⟩ | ⟨hexact, hbeyond⟩ := exact_ofInt_nearby h
    · have hvalue := value?_of_exact hexact
      simp only [decide_eq_true_eq] at hvalue
      exact .inl ⟨_, hvalue, fun x q hq => signed_nearby h (by positivity) hnear hq⟩
    · exact .inr ⟨hexact, fun x q hq => signed_beyond hbeyond hq⟩

/-- The double of an integer is on the same side of every other double as the integer, or it is that
double. -/
theorem compare?_ofInt (n : Int) (hq : value? x = some q) :
    (compare? (ofInt n) x = some (if ofInt n == x then .eq else compare (n : ℚ) q) ∧
      compare? x (ofInt n) = some (if ofInt n == x then .eq else compare q n)) ∧
    (x == ofInt n) = (ofInt n == x) ∧ (q = n → (ofInt n == x) = true) := by
  have hswap (p r : ℚ) : compare p r = (compare r p).swap := Std.OrientedOrd.eq_swap
  obtain ⟨r, hr, hnear⟩ | ⟨hinfinite, hbeyond⟩ := ofInt_nearby n
  · obtain ⟨below, above⟩ := hnear x q hq
    obtain ⟨hc, he⟩ := compare?_eq hr hq
    obtain ⟨hc', he'⟩ := compare?_eq hq hr
    have hcompare := compare_of_nearby below above
    rw [hc, hc', he, he', hswap q r, hswap q n]
    refine ⟨⟨congrArg some hcompare, congrArg some ?_⟩, ?_, fun heq => ?_⟩
    · conv_lhs => rw [hcompare]
      split <;> rfl
    · cases compare r q <;> rfl
    · rw [beq_iff_eq, compare_eq_iff_eq]
      exact le_antisymm (below heq.ge) (above heq.le)
  · obtain ⟨⟨hc, hc'⟩, he, he'⟩ := compare?_infinite hinfinite hq
    have hside := hbeyond x q hq
    rw [hc, hc', he, he', hswap q n]
    by_cases negative : n < 0
    · rw [if_pos negative] at hside
      rw [compare_lt_iff_lt.2 hside]
      simp [negative, hside.ne']
    · rw [if_neg negative] at hside
      rw [compare_gt_iff_gt.2 hside]
      simp [negative, hside.ne]

end Number
end Workbook
