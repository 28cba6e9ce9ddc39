/-
Integers as doubles.

A double of 64 bits holds every integer up to `Number.exactBound` exactly.  Rounding shifts such an
integer until its highest bit is the 53rd and drops nothing (`Number.round_natural`); packing keeps
the digits below that bit beside the exponent (`Number.pack_toNat`), and `Number.exact` reads both
back (`Number.exact_of_toNat`).  So the integer comes back from the double (`Number.exact_ofInt`),
and a value that went this way is the same integer again (`Native.ofNumber_ofInt`).

A longer integer keeps its first 53 digits, so none but zero becomes zero (`Number.ofInt_ne_zero`).
-/
import Mathlib
import Workbook.Native.Conversion

open Float.Model (Format UnpackedFloat totalExponent)
open Float.Model.UnpackedFloat (ExtendedMantissa)

namespace Workbook
namespace Number

/-! ## Rounding -/

/-- A natural number of at most 53 bits, shifted until it has 53. -/
theorem shiftLeft_log2_bounds {m : Nat} (pos : 0 < m) (high : m < 2 ^ 53) :
    m.log2 ≤ 52 ∧ 2 ^ 52 ≤ m <<< (52 - m.log2) ∧ m <<< (52 - m.log2) < 2 ^ 53 := by
  obtain ⟨low, above⟩ := (Nat.log2_eq_iff (by omega)).1 (rfl : m.log2 = m.log2)
  have hlog : m.log2 < 53 := (Nat.log2_lt (by omega)).2 high
  have hlow : 2 ^ m.log2 * 2 ^ (52 - m.log2) = 2 ^ 52 := by
    rw [← Nat.pow_add, Nat.add_sub_cancel' (by omega)]
  have habove : 2 ^ (m.log2 + 1) * 2 ^ (52 - m.log2) = 2 ^ 53 := by
    rw [← Nat.pow_add, show m.log2 + 1 + (52 - m.log2) = 53 by omega]
  rw [Nat.shiftLeft_eq, ← hlow, ← habove]
  exact ⟨by omega, Nat.mul_le_mul_right _ low, Nat.mul_lt_mul_of_pos_right above (by positivity)⟩

/-- Away from the bottom of the range, 53 bits are kept. -/
theorem targetExponent_eq {m L : Nat} (h : m.log2 = L) {e : Int} (least : -1022 ≤ L + e) :
    Format.binary64.targetExponent (totalExponent m e) = L + e - 52 := by
  subst h
  show max ((m.log2 + 1 + e : Int) - 53) (3 - 1024 - 53) = _
  omega

theorem roundWithAccuracy_exact (sign : UnpackedFloat.Sign) {m : Nat} {e : Int} (pos : 0 < m)
    (settled : Format.binary64.targetExponent (totalExponent m e) = e) :
    UnpackedFloat.roundWithAccuracy .binary64 sign m e .exact = .finite sign m e pos := by
  have hshift : UnpackedFloat.shiftToTargetExponent .binary64 m e .exact =
      (⟨m, false, false⟩, e) := by
    unfold UnpackedFloat.shiftToTargetExponent UnpackedFloat.shiftToExponent
    simp only [settled, Int.sub_self, Int.toNat_zero]
    exact congrArg (Prod.mk _) (Int.add_zero e)
  have hround : (⟨m, false, false⟩ : UnpackedFloat.ExtendedMantissa).roundedMantissa = m := rfl
  unfold UnpackedFloat.roundWithAccuracy
  simp only [hshift, hround]
  exact dif_neg (Nat.ne_of_gt pos)

/-- A natural number of at most 53 bits is not changed by rounding. -/
theorem round_natural (sign : UnpackedFloat.Sign) {m : Nat} (pos : 0 < m) (high : m < 2 ^ 53)
    (pos' : 0 < m <<< (52 - m.log2)) :
    UnpackedFloat.round .binary64 sign m 0 =
      .finite sign (m <<< (52 - m.log2)) (m.log2 - 52) pos' := by
  obtain ⟨hlog, low, high'⟩ := shiftLeft_log2_bounds pos high
  have hdecrease : UnpackedFloat.decreaseExponent m 0 (m.log2 + 0 - 52) =
      (m <<< (52 - m.log2), (m.log2 : Int) - 52) := by
    have hamount : (0 - ((m.log2 : Int) + 0 - 52)).toNat = 52 - m.log2 := by omega
    unfold UnpackedFloat.decreaseExponent
    rw [hamount]
    exact congrArg (Prod.mk _) (by omega)
  have hlog' : (m <<< (52 - m.log2)).log2 = 52 := (Nat.log2_eq_iff (by omega)).2 ⟨low, high'⟩
  have hsettled := targetExponent_eq hlog' (e := m.log2 - 52) (by omega)
  have htarget := targetExponent_eq (rfl : m.log2 = m.log2) (e := 0) (by omega)
  unfold UnpackedFloat.round
  simp only [htarget, hdecrease]
  exact roundWithAccuracy_exact sign pos' (hsettled.trans (by omega))

/-! ### Integers of any length -/

theorem mantissa_shiftRight (em : ExtendedMantissa) (k : Nat) :
    (em >>> k).mantissa = em.mantissa >>> k := by
  induction k with
  | zero => rfl
  | succ k ih =>
    show (ExtendedMantissa.shiftRightOne (em >>> k)).mantissa = _
    rw [Nat.shiftRight_succ, ← ih]
    rfl

/-- A number of at least 53 bits without those behind the first 53. -/
theorem shiftRight_log2_bounds {m : Nat} (low : 52 ≤ m.log2) :
    2 ^ 52 ≤ m >>> (m.log2 - 52) ∧ m >>> (m.log2 - 52) < 2 ^ 53 := by
  have pos : m ≠ 0 := by
    rintro rfl
    simp at low
  obtain ⟨below, above⟩ := (Nat.log2_eq_iff pos).1 (rfl : m.log2 = m.log2)
  have hbelow : 2 ^ 52 * 2 ^ (m.log2 - 52) = 2 ^ m.log2 := by
    rw [← Nat.pow_add, Nat.add_sub_cancel' low]
  have habove : 2 ^ 53 * 2 ^ (m.log2 - 52) = 2 ^ (m.log2 + 1) := by
    rw [← Nat.pow_add, show 53 + (m.log2 - 52) = m.log2 + 1 by omega]
  rw [Nat.shiftRight_eq_div_pow, Nat.le_div_iff_mul_le (by positivity),
    Nat.div_lt_iff_lt_mul (by positivity), hbelow, habove]
  exact ⟨below, above⟩

/-- A mantissa of at least 53 bits is shifted until it has 53. -/
theorem shiftToTargetExponent_eq {m : Nat} {e : Int} (low : 52 ≤ m.log2) (least : -1074 ≤ e) :
    UnpackedFloat.shiftToTargetExponent .binary64 m e .exact =
      ((⟨m, false, false⟩ : ExtendedMantissa) >>> (m.log2 - 52), e + (m.log2 - 52 : Nat)) := by
  have htarget := targetExponent_eq (rfl : m.log2 = m.log2) (e := e) (by omega)
  have hshift : (m.log2 + e - 52 - e : Int).toNat = m.log2 - 52 := by omega
  unfold UnpackedFloat.shiftToTargetExponent UnpackedFloat.shiftToExponent
  simp only [htarget, hshift]
  rfl

/-- Rounding changes a mantissa by one at most. -/
theorem roundedMantissa_bounds (em : ExtendedMantissa) :
    em.mantissa ≤ em.roundedMantissa ∧ em.roundedMantissa ≤ em.mantissa + 1 := by
  unfold ExtendedMantissa.roundedMantissa UnpackedFloat.Accuracy.roundToNearestEven
  split <;> omega

/-- Digits that are zero are dropped without a trace. -/
theorem shiftRight_of_mod {m k : Nat} (h : m % 2 ^ k = 0) :
    (⟨m, false, false⟩ : ExtendedMantissa) >>> k = ⟨m >>> k, false, false⟩ := by
  induction k with
  | zero => rfl
  | succ k ih =>
    obtain ⟨n, rfl⟩ := Nat.dvd_of_mod_eq_zero h
    have hhalf : (2 ^ (k + 1) * n) >>> k = 2 * n := by
      rw [Nat.shiftRight_eq_div_pow, Nat.pow_succ, Nat.mul_assoc,
        Nat.mul_div_cancel_left _ (by positivity)]
    have hbefore := ih (Nat.mod_eq_zero_of_dvd ⟨2 * n, by rw [Nat.pow_succ, Nat.mul_assoc]⟩)
    show ExtendedMantissa.shiftRightOne ((⟨_, false, false⟩ : ExtendedMantissa) >>> k) = _
    rw [hbefore, Nat.shiftRight_succ, hhalf]
    unfold ExtendedMantissa.shiftRightOne
    simp

/-- A mantissa that is shifted and rounded is rounded up or down, and only if digits are lost. -/
theorem roundedMantissa_shiftRight (m k : Nat) :
    let r := ((⟨m, false, false⟩ : ExtendedMantissa) >>> k).roundedMantissa
    m >>> k ≤ r ∧ r ≤ m >>> k + 1 ∧ (m % 2 ^ k = 0 → r = m >>> k) := by
  have hbounds := roundedMantissa_bounds ((⟨m, false, false⟩ : ExtendedMantissa) >>> k)
  rw [mantissa_shiftRight] at hbounds
  refine ⟨hbounds.1, hbounds.2, fun h => ?_⟩
  rw [shiftRight_of_mod h]
  rfl

/-- What is rounded to 53 bits has 53 bits afterwards, and no smaller exponent.  All bits but the
first 53 are dropped, and one is added at the end of these or not; if that makes one bit more, then
the last one is a zero. -/
theorem exists_roundWithAccuracy (sign : UnpackedFloat.Sign) {m : Nat} {e : Int} (low : 52 ≤ m.log2)
    (least : -1074 ≤ e) :
    ∃ (r m' : Nat) (e' : Int) (pos : 0 < m'),
      UnpackedFloat.roundWithAccuracy .binary64 sign m e .exact = .finite sign m' e' pos ∧
      2 ^ 52 ≤ m' ∧ m' < 2 ^ 53 ∧ e ≤ e' ∧
      (m' : ℚ) * 2 ^ e' = r * 2 ^ (e + (m.log2 - 52 : Nat)) ∧
      m >>> (m.log2 - 52) ≤ r ∧ r ≤ m >>> (m.log2 - 52) + 1 ∧
      (m % 2 ^ (m.log2 - 52) = 0 → r = m >>> (m.log2 - 52)) := by
  obtain ⟨hdown, hup, hexact⟩ := roundedMantissa_shiftRight m (m.log2 - 52)
  obtain ⟨hlow, hhigh⟩ := shiftRight_log2_bounds low
  have hround : ∀ m' e', UnpackedFloat.shiftToTargetExponent .binary64
      ((⟨m, false, false⟩ : ExtendedMantissa) >>> (m.log2 - 52)).roundedMantissa
      (e + (m.log2 - 52 : Nat)) .exact = (⟨m', false, false⟩, e') → ∀ pos,
      UnpackedFloat.roundWithAccuracy .binary64 sign m e .exact = .finite sign m' e' pos := by
    intro m' e' hagain pos
    unfold UnpackedFloat.roundWithAccuracy
    simp only [shiftToTargetExponent_eq low least, hagain]
    exact dif_neg (Nat.ne_of_gt pos)
  generalize ((⟨m, false, false⟩ : ExtendedMantissa) >>> (m.log2 - 52)).roundedMantissa = r
    at hdown hup hexact hround
  by_cases hr : r < 2 ^ 53
  · have hlog : r.log2 = 52 := (Nat.log2_eq_iff (by omega)).2 ⟨by omega, hr⟩
    have hagain := shiftToTargetExponent_eq (m := r) (e := e + (m.log2 - 52 : Nat)) (by omega)
      (by omega)
    rw [hlog, Nat.sub_self, Nat.cast_zero, Int.add_zero] at hagain
    exact ⟨r, r, _, by omega, hround r _ hagain _, by omega, hr, by omega, rfl, hdown, hup, hexact⟩
  · obtain rfl : r = 2 ^ 53 := by omega
    have hlog : (2 ^ 53 : Nat).log2 = 53 := Nat.log2_two_pow
    have hagain := shiftToTargetExponent_eq (m := 2 ^ 53) (e := e + (m.log2 - 52 : Nat)) (by omega)
      (by omega)
    rw [hlog, shiftRight_of_mod (by decide)] at hagain
    refine ⟨2 ^ 53, 2 ^ 52, _, by decide, hround _ _ hagain _, by omega, by omega, by omega, ?_, hdown,
      hup, hexact⟩
    rw [zpow_add₀ two_ne_zero]
    push_cast
    ring

/-- A mantissa of at least 53 bits is rounded as it is. -/
theorem round_of_long (sign : UnpackedFloat.Sign) {m : Nat} {e : Int} (low : 52 ≤ m.log2)
    (least : -1074 ≤ e) : UnpackedFloat.round .binary64 sign m e =
      UnpackedFloat.roundWithAccuracy .binary64 sign m e .exact := by
  have htarget := targetExponent_eq (rfl : m.log2 = m.log2) (e := e) (by omega)
  have hdecrease : UnpackedFloat.decreaseExponent m e (m.log2 + e - 52) = (m, e) := by
    have hamount : (e - ((m.log2 : Int) + e - 52)).toNat = 0 := by omega
    unfold UnpackedFloat.decreaseExponent
    rw [hamount]
    exact congrArg (Prod.mk _) (Int.sub_zero e)
  unfold UnpackedFloat.round
  simp only [htarget, hdecrease]

/-- An integer other than zero is rounded to a number of 53 bits. -/
theorem exists_round (sign : UnpackedFloat.Sign) {m : Nat} (pos : 0 < m) :
    ∃ m' e' pos', UnpackedFloat.round .binary64 sign m 0 = .finite sign m' e' pos' ∧
      m'.log2 = 52 ∧ -52 ≤ e' := by
  by_cases high : m < 2 ^ 53
  · obtain ⟨hlog, low, high'⟩ := shiftLeft_log2_bounds pos high
    have pos' : 0 < m <<< (52 - m.log2) := by omega
    exact ⟨_, _, pos', round_natural sign pos high pos', (Nat.log2_eq_iff (by omega)).2 ⟨low, high'⟩,
      by omega⟩
  · have low : 52 ≤ m.log2 := (Nat.le_log2 (by omega)).2 (by omega)
    obtain ⟨r, m', e', pos', hround, hlow', hhigh', he, -⟩ :=
      exists_roundWithAccuracy sign (e := 0) low (by omega)
    exact ⟨m', e', pos', (round_of_long sign low (by omega)).trans hround,
      (Nat.log2_eq_iff (by omega)).2 ⟨hlow', hhigh'⟩, by omega⟩

/-! ## Packing -/

/-- The sign of a double. -/
def signOf (negative : Bool) : UnpackedFloat.Sign :=
  if negative then .negative else .positive

/-- The number whose binary digits are a sign, an exponent and a fraction. -/
def layoutBits (negative : Bool) (field fraction : Nat) : Nat :=
  (if negative then 1 else 0) * 2 ^ 63 + field * 2 ^ 52 + fraction

theorem packComponents_toNat (negative : Bool) (exponent : BitVec 11) (mantissa : BitVec 52) :
    (UnpackedFloat.packComponents .binary64 (signOf negative) exponent mantissa).toNat =
      layoutBits negative exponent.toNat mantissa.toNat := by
  have hsign : (signOf negative).toBitVec.toNat = if negative then 1 else 0 := by
    cases negative <;> rfl
  have he : exponent.toNat < 2 ^ 11 := exponent.isLt
  have hm : mantissa.toNat < 2 ^ 52 := mantissa.isLt
  show (((signOf negative).toBitVec ++ exponent) ++ mantissa).toNat = _
  rw [BitVec.toNat_append, BitVec.toNat_append, hsign, ← Nat.shiftLeft_add_eq_or_of_lt he,
    ← Nat.shiftLeft_add_eq_or_of_lt hm, Nat.shiftLeft_eq, Nat.shiftLeft_eq]
  unfold layoutBits
  omega

/-- Of 53 binary digits the highest is left out. -/
theorem pack_toNat {negative : Bool} {m : Nat} {e : Int} (pos : 0 < m) (low : 2 ^ 52 ≤ m)
    (high : m < 2 ^ 53) (least : -1074 ≤ e) (most : e ≤ 971) :
    (UnpackedFloat.pack .binary64 (.finite (signOf negative) m e pos)).toNat =
      layoutBits negative (e + 1075).toNat (m - 2 ^ 52) := by
  have hlog : m.log2 = 52 := (Nat.log2_eq_iff (by omega)).2 ⟨low, high⟩
  have hbias : (e + Format.binary64.exponentBias +
      Format.binary64.mantissaBitsWithoutImplicit).toNat = (e + 1075).toNat := by
    show (e + 1023 + 52).toNat = _
    omega
  unfold UnpackedFloat.pack
  simp only [hbias]
  rw [if_neg (by show ¬ 2 ^ 11 ≤ _; omega), if_pos (by rw [hlog]; rfl), packComponents_toNat,
    BitVec.toNat_ofNat, BitVec.toNat_ofNat]
  unfold layoutBits
  omega

/-- A number of 53 bits with an exponent that is not too small is not packed as a zero. -/
theorem unpackExponent_pack_ne (sign : UnpackedFloat.Sign) {m : Nat} {e : Int} (pos : 0 < m)
    (hlog : m.log2 = 52) (least : -52 ≤ e) :
    UnpackedFloat.unpackExponent (UnpackedFloat.pack .binary64 (.finite sign m e pos)) ≠
      BitVec.ofNat Format.binary64.exponentBits 0 := by
  have hbias : (e + Format.binary64.exponentBias +
      Format.binary64.mantissaBitsWithoutImplicit).toNat = (e + 1075).toNat := by
    show (e + 1023 + 52).toNat = _
    omega
  unfold UnpackedFloat.pack
  simp only [hbias]
  split
  · unfold UnpackedFloat.packedInfinity
    rw [UnpackedFloat.unpackExponent_packComponents]
    decide
  · rename_i hmost
    rw [if_pos (by rw [hlog]; rfl), UnpackedFloat.unpackExponent_packComponents]
    have hmost : ¬ 2 ^ 11 ≤ (e + 1075).toNat + 1 := hmost
    intro hzero
    have hnat : (BitVec.ofNat 11 (e + 1075).toNat).toNat = 0 := congrArg BitVec.toNat hzero
    rw [BitVec.toNat_ofNat] at hnat
    omega

/-! ## Reading -/

/-- What a double stands for, from its bits. -/
theorem exact_of_layout {x : Float} {negative : Bool} {field fraction : Nat} (hfield : field < 2048)
    (hfraction : fraction < 2 ^ 52) (h : x.toBits.toNat = layoutBits negative field fraction) :
    exact x =
      if field = 2047 then (if fraction = 0 then .infinite negative else .nan)
      else if field = 0 then .finite negative fraction (-1074)
      else .finite negative (2 ^ 52 + fraction) (field - 1075) := by
  unfold layoutBits at h
  have hnegative : (x.toBits >>> 63 == 1) = negative := by
    rw [Bool.eq_iff_iff, beq_iff_eq, ← UInt64.toNat_inj, UInt64.toNat_shiftRight, h]
    show _ >>> 63 = 1 ↔ _
    rw [Nat.shiftRight_eq_div_pow]
    cases negative <;> simp <;> omega
  have hexponent : ((x.toBits >>> 52) &&& 0x7ff).toNat = field := by
    rw [UInt64.toNat_and, UInt64.toNat_shiftRight, h]
    show (_ >>> 52) &&& (2 ^ 11 - 1) = field
    rw [Nat.and_two_pow_sub_one_eq_mod, Nat.shiftRight_eq_div_pow]
    split <;> omega
  have hmantissa : (x.toBits &&& 0xfffffffffffff).toNat = fraction := by
    rw [UInt64.toNat_and, h]
    show _ &&& (2 ^ 52 - 1) = fraction
    rw [Nat.and_two_pow_sub_one_eq_mod]
    split <;> omega
  unfold exact
  simp only [hnegative, hexponent, hmantissa]
  rfl

/-- The number that a double of the usual kind stands for, from its bits. -/
theorem exact_of_toNat {x : Float} {negative : Bool} {field fraction : Nat} (hfield : field < 2047)
    (normal : field ≠ 0) (hfraction : fraction < 2 ^ 52)
    (h : x.toBits.toNat = layoutBits negative field fraction) :
    exact x = .finite negative (2 ^ 52 + fraction) (field - 1075) := by
  rw [exact_of_layout (by omega) hfraction h, if_neg (by omega), if_neg normal]

/-- A natural number of at most 53 bits, from the double that is nearest to it. -/
theorem exact_ofScaled {negative : Bool} {m : Nat} (pos : 0 < m) (high : m < 2 ^ 53) :
    exact (ofScaled negative m 0) = .finite negative (m <<< (52 - m.log2)) (m.log2 - 52) := by
  obtain ⟨hlog, low, high'⟩ := shiftLeft_log2_bounds pos high
  have pos' : 0 < m <<< (52 - m.log2) := by omega
  have hbits : (ofScaled negative m 0).toBits.toNat =
      layoutBits negative ((m.log2 : Int) - 52 + 1075).toNat (m <<< (52 - m.log2) - 2 ^ 52) := by
    show (UnpackedFloat.pack .binary64 (.round .binary64 (signOf negative) m 0)).toNat = _
    rw [round_natural _ pos high pos', pack_toNat pos' low high' (by omega) (by omega)]
  rw [exact_of_toNat (by omega) (by omega) (by omega) hbits, Nat.add_sub_cancel' low]
  congr 1
  omega

/-- Up to the bound an integer comes back from the double that is nearest to it. -/
theorem exact_ofInt {n : Int} (bound : n.natAbs ≤ exactBound) :
    ∃ m e, exact (ofInt n) = .finite (n < 0) m e ∧ Exact.isWhole m e = true ∧
      Exact.whole m e = n.natAbs := by
  by_cases zero : n = 0
  · subst zero
    exact ⟨0, -1074, rfl, rfl, rfl⟩
  · by_cases high : n.natAbs < 2 ^ 53
    · have hlog := (shiftLeft_log2_bounds (by omega) high).1
      refine ⟨_, _, exact_ofScaled (by omega) high, ?_, ?_⟩
      · unfold Exact.isWhole
        split
        · have hshift : (-((n.natAbs.log2 : Int) - 52)).toNat = 52 - n.natAbs.log2 := by omega
          rw [hshift, Nat.shiftLeft_eq, Nat.one_shiftLeft, beq_iff_eq]
          exact Nat.mul_mod_left _ _
        · rfl
      · unfold Exact.whole
        split
        · have hshift : (-((n.natAbs.log2 : Int) - 52)).toNat = 52 - n.natAbs.log2 := by omega
          rw [hshift, Nat.shiftLeft_shiftRight]
        · have hlog' : n.natAbs.log2 = 52 := by omega
          rw [hlog']
          rfl
    · -- the bound itself has one digit more, a zero
      have htop : n = 2 ^ 53 ∨ n = -2 ^ 53 := by
        have hbound : exactBound = 2 ^ 53 := rfl
        omega
      obtain rfl | rfl := htop
      · exact ⟨2 ^ 52, 1, rfl, rfl, rfl⟩
      · exact ⟨2 ^ 52, 1, rfl, rfl, rfl⟩

/-! ## Zero -/

/-- What is equal to zero has been packed as a zero. -/
theorem unpack_of_beq_zero {x : Float} (h : (x == 0) = true) :
    ∃ sign, x.toModel.unpack = .zero sign := by
  have hzero : (0 : Float).toModel.unpack = .zero .positive := rfl
  have hcompare : (x.toModel.unpack.compare (.zero .positive) == some .eq) = true := hzero ▸ h
  cases hx : x.toModel.unpack with
  | zero sign => exact ⟨sign, rfl⟩
  | notANumber =>
    rw [hx] at hcompare
    cases hcompare
  | infinity sign =>
    rw [hx] at hcompare
    cases sign <;> cases hcompare
  | finite sign m e pos =>
    rw [hx] at hcompare
    cases sign <;> cases hcompare

/-- An integer other than zero is not zero as a double. -/
theorem ofInt_ne_zero {n : Int} (h : n ≠ 0) : (ofInt n == 0) = false := by
  obtain ⟨m, e, pos, hround, hlog, he⟩ := exists_round (signOf (n < 0)) (Int.natAbs_pos.2 h)
  refine Bool.eq_false_iff.2 fun hzero => ?_
  obtain ⟨sign, hunpack⟩ := unpack_of_beq_zero hzero
  have hexponent := unpackExponent_pack_ne (signOf (n < 0)) pos hlog he
  have hunpack : UnpackedFloat.unpack .binary64 (UnpackedFloat.pack .binary64
      (UnpackedFloat.round .binary64 (signOf (n < 0)) n.natAbs 0)) = .zero sign := hunpack
  rw [hround] at hunpack
  unfold UnpackedFloat.unpack at hunpack
  simp only [if_neg hexponent] at hunpack
  split at hunpack
  · split at hunpack <;> cases hunpack
  · cases hunpack

end Number

/-- An integer that a double holds exactly is the same integer again. -/
theorem Native.ofNumber_ofInt {n : Int} (bound : n.natAbs ≤ Number.exactBound) :
    ofNumber (Number.ofInt n) = .integer (Int64.ofInt n) := by
  obtain ⟨m, e, hexact, hwhole, hm⟩ := Number.exact_ofInt bound
  have hfits : Number.fitsWord n = true := by
    have hbound : Number.exactBound = 2 ^ 53 := rfl
    simp only [Number.fitsWord, decide_eq_true_eq]
    simp only [Number.leastWord, Number.greatestWord]
    omega
  have hn : (if decide (n < 0) then -(Number.Exact.whole m e : Int) else Number.Exact.whole m e) =
      n := by
    rw [hm]
    by_cases negative : n < 0
    · rw [if_pos (decide_eq_true negative)]
      omega
    · rw [if_neg (by simpa using negative)]
      omega
  unfold ofNumber
  rw [hexact]
  simp only [hwhole, if_true, hn]
  unfold Value.ofInt
  rw [if_pos hfits]

end Workbook
