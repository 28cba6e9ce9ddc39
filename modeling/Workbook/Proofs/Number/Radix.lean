/-
Integers written in a base and read back.

Writing divides by the base and takes the digits off from the last one on; reading multiplies by the
base and adds them up from the first one on, in doubles.  Every number on the way is the number of a
front part of the digits, so it is no larger than the integer itself, and sums and products of natural
numbers that stay within `Number.exactBound` are exact (`Number.natural_mul`, `Number.natural_add`):
digits that stand for a number that a double holds are rounded to that double, however many they are
(`Number.round_of_value`).

A numeral begins with a digit, not with a blank or a mark `0x`, so nothing of it is skipped
(`Number.leadingInteger_inBase`).
-/
import Mathlib
import Workbook.Proofs.Number.Text
import Workbook.Engine

open Float.Model (Format UnpackedFloat totalExponent)

namespace Workbook
namespace Number

/-! ## Sums and products -/

namespace Exact

/-- What a double stands for says which digits it has. -/
theorem Digits.eq_of_value {m m' : Nat} {e e' : Int} (h : Digits m e) (h' : Digits m' e')
    (hvalue : (m * 2 ^ e : ℚ) = m' * 2 ^ e') : m = m' ∧ e = e' := by
  have hcompare := h.compare_eq h'
  rw [compare_eq_iff_eq.2 hvalue, Ordering.then_eq_eq, compare_eq_iff_eq, compare_eq_iff_eq]
    at hcompare
  exact hcompare.symm

end Exact

section

variable {m k : Nat} {e : Int}

/-- Of a number up to the bound the last of 53 bits stands for two at most. -/
theorem exponent_le_one (low : 2 ^ 52 ≤ m) (bound : k ≤ exactBound) (hvalue : (m * 2 ^ e : ℚ) = k) :
    e ≤ 1 := by
  have hlow : (2 ^ 52 : ℚ) ≤ m := by exact_mod_cast low
  have hbound : (k : ℚ) ≤ 2 ^ 53 := by exact_mod_cast bound
  have hpower : (2 : ℚ) ^ e ≤ 2 ^ (1 : Int) := by
    have : (2 ^ 52 * 2 ^ e : ℚ) ≤ m * 2 ^ e := by gcongr
    linarith
  exact (zpow_le_zpow_iff_right₀ one_lt_two).1 hpower

/-- A natural number up to the bound is not changed by rounding. -/
theorem exists_round_natural (sign : UnpackedFloat.Sign) (pos : 0 < k) (bound : k ≤ exactBound) :
    ∃ (m : Nat) (e : Int) (pos' : 0 < m),
      UnpackedFloat.round .binary64 sign k 0 = .finite sign m e pos' ∧
      Exact.Digits m e ∧ 2 ^ 52 ≤ m ∧ -52 ≤ e ∧ e ≤ 1 ∧ (m * 2 ^ e : ℚ) = k := by
  obtain ⟨m, e, pos', hround, low, high, least, hnear⟩ := exists_round_nearby sign pos
  obtain ⟨negative, a, b, -, hdigits, hk⟩ := exists_digits (value?_ofInt (n := k) (by simpa))
  have hk : (a * 2 ^ b : ℚ) = k := by
    cases negative with
    | false => simpa using hk.symm
    | true =>
      have hleast : (0 : ℚ) ≤ a * 2 ^ b := by positivity
      have hpos : (0 : ℚ) < k := by exact_mod_cast pos
      simp only [Int.cast_natCast, if_true] at hk
      linarith
  obtain ⟨below, above⟩ := hnear a b hdigits
  have hvalue : (m * 2 ^ e : ℚ) = k := le_antisymm (hk ▸ below hk.ge) (hk ▸ above hk.le)
  have most := exponent_le_one low bound hvalue
  exact ⟨m, e, pos', hround, ⟨high, by omega, by omega, .inr low⟩, low, least, most, hvalue⟩

/-- Digits that stand for a natural number up to the bound are rounded to it, as the digits of a
product or a sum of two such numbers are. -/
theorem round_of_value (sign : UnpackedFloat.Sign) (low : 2 ^ 52 ≤ m) (least : -104 ≤ e)
    (pos : 0 < k) (bound : k ≤ exactBound) (hvalue : (m * 2 ^ e : ℚ) = k) :
    UnpackedFloat.roundWithAccuracy .binary64 sign m e .exact = .round .binary64 sign k 0 := by
  have hlog : 52 ≤ m.log2 := (Nat.le_log2 (by omega)).2 low
  have hbits : 2 ^ (52 + (m.log2 - 52)) ≤ m := by
    rw [Nat.add_sub_cancel' hlog]
    exact Nat.log2_self_le (by omega)
  have most := exponent_le_one low bound hvalue
  obtain ⟨r, m', e', pos', hround, hlow, hhigh, he, hvalue', down, up, whole⟩ :=
    exists_roundWithAccuracy sign (e := e) hlog (by omega)
  obtain ⟨a, b, pos'', hround', hdigits, ha, hb, hb', hk⟩ := exists_round_natural sign pos bound
  -- rounding takes the digits past no double, and the number is one
  have hshifted : (m : ℚ) = a * 2 ^ (b - e) := by
    rw [zpow_sub₀ two_ne_zero, mul_div_assoc', hk, ← hvalue]
    field_simp
  obtain ⟨below, above⟩ := nearby_of_shiftRight hbits down up whole a (b - e)
    ⟨hdigits.few, by omega, by omega, .inr ha⟩
  have hr : (r * 2 ^ ((m.log2 - 52 : Nat) : Int) : ℚ) = m :=
    le_antisymm (hshifted ▸ below hshifted.le) (hshifted ▸ above hshifted.ge)
  have hexact : (m' * 2 ^ e' : ℚ) = k := by
    rw [hvalue', ← hvalue, ← hr, zpow_add₀ two_ne_zero]
    ring
  have most' := exponent_le_one hlow bound hexact
  obtain ⟨rfl, rfl⟩ := Exact.Digits.eq_of_value ⟨hhigh, by omega, by omega, .inr hlow⟩ hdigits
    (hexact.trans hk.symm)
  rw [hround, hround']

end

/-- The digits of an integer other than zero, and the double back from them. -/
theorem exists_unpack {n : Int} (h : n ≠ 0) (bound : n.natAbs ≤ exactBound) :
    ∃ (m : Nat) (e : Int) (pos : 0 < m),
      (ofInt n).toModel.unpack = .finite (signOf (n < 0)) m e pos ∧
      Float.ofModel (.pack (.finite (signOf (n < 0)) m e pos)) = ofInt n ∧
      2 ^ 52 ≤ m ∧ -52 ≤ e ∧ (m * 2 ^ e : ℚ) = n.natAbs := by
  obtain ⟨m, e, pos, hround, hdigits, low, least, most, hvalue⟩ :=
    exists_round_natural (signOf (n < 0)) (Int.natAbs_pos.2 h) bound
  have few := hdigits.few
  have hbits : (ofInt n).toBits.toNat = layoutBits (n < 0) (e + 1075).toNat (m - 2 ^ 52) := by
    show (UnpackedFloat.pack .binary64 (.round .binary64 (signOf (n < 0)) n.natAbs 0)).toNat = _
    rw [hround, pack_toNat pos low few (by omega) (by omega)]
  refine ⟨m, e, pos, ?_, ?_, low, least, hvalue⟩
  · rw [unpack_eq, exact_of_toNat (by omega) (by omega) (by omega) hbits, Nat.add_sub_cancel' low]
    exact (Exact.unpacked_pos _ pos rfl (by omega)).symm
  · rw [← hround]
    rfl

/-- A sign and digits that stand for an integer are rounded to its double. -/
theorem ofModel_of_value {n : Int} (h : n ≠ 0) (bound : n.natAbs ≤ exactBound) {m : Nat} {e : Int}
    (low : 2 ^ 52 ≤ m) (least : -104 ≤ e) (hvalue : (m * 2 ^ e : ℚ) = n.natAbs) :
    Float.ofModel (.pack (.roundWithAccuracy .binary64 (signOf (n < 0)) m e .exact)) = ofInt n := by
  rw [round_of_value _ low least (Int.natAbs_pos.2 h) bound hvalue]
  rfl

theorem signOf_mul (a b : Bool) : signOf a * signOf b = signOf (a ^^ b) := by
  cases a <;> cases b <;> rfl

/-- The product of two integers other than zero as doubles, if it is not too long. -/
theorem ofInt_mul {a b : Int} (ha : a ≠ 0) (hb : b ≠ 0) (bound : (a * b).natAbs ≤ exactBound) :
    ofInt a * ofInt b = ofInt (a * b) := by
  have hsign : (decide (a < 0) ^^ decide (b < 0)) = decide (a * b < 0) := by
    by_cases ha' : a < 0 <;> by_cases hb' : b < 0 <;> simp [mul_neg_iff, ha', hb'] <;> omega
  have hmul := Int.natAbs_mul a b
  obtain ⟨m, e, pos, hunpack, -, low, least, hvalue⟩ := exists_unpack ha
    ((Nat.le_mul_of_pos_right _ (Int.natAbs_pos.2 hb)).trans (hmul ▸ bound))
  obtain ⟨m', e', pos', hunpack', -, low', least', hvalue'⟩ := exists_unpack hb
    ((Nat.le_mul_of_pos_left _ (Int.natAbs_pos.2 ha)).trans (hmul ▸ bound))
  show Float.ofModel (.pack (.mul .binary64 (ofInt a).toModel.unpack (ofInt b).toModel.unpack)) = _
  rw [hunpack, hunpack']
  show Float.ofModel (.pack (.roundWithAccuracy .binary64 (signOf (a < 0) * signOf (b < 0)) (m * m')
    (e + e') .exact)) = _
  rw [signOf_mul, hsign]
  refine ofModel_of_value (mul_ne_zero ha hb) bound (low.trans (Nat.le_mul_of_pos_right _ pos'))
    (by omega) ?_
  rw [hmul, Nat.cast_mul, Nat.cast_mul, ← hvalue, ← hvalue', zpow_add₀ two_ne_zero]
  ring

theorem unpack_zero : (ofInt (0 : Nat)).toModel.unpack = .zero .positive :=
  rfl

/-- The product of two natural numbers as doubles, if it is not too long. -/
theorem natural_mul {a b : Nat} (hb : 0 < b) (short : b ≤ exactBound) (bound : a * b ≤ exactBound) :
    ofInt a * ofInt b = ofInt (a * b : Nat) := by
  obtain rfl | ha := Nat.eq_zero_or_pos a
  · obtain ⟨m, e, pos, hunpack, -⟩ := exists_unpack (n := b) (by omega) (by omega)
    show Float.ofModel (.pack (.mul .binary64 (ofInt (0 : Nat)).toModel.unpack
      (ofInt b).toModel.unpack)) = _
    rw [unpack_zero, hunpack, decide_eq_false (by omega), Nat.zero_mul]
    rfl
  · rw [ofInt_mul (by omega) (by omega) (by rwa [← Nat.cast_mul, Int.natAbs_natCast]), Nat.cast_mul]

/-- The mantissa for a smaller exponent stands for the same number. -/
theorem decreaseExponent_value (m : Nat) {e t : Int} (h : t ≤ e) :
    m ≤ (UnpackedFloat.decreaseExponent m e t).1 ∧
      ((UnpackedFloat.decreaseExponent m e t).1 * 2 ^ t : ℚ) = m * 2 ^ e := by
  obtain ⟨k, rfl⟩ := Int.le.dest h
  show m ≤ m <<< (t + k - t).toNat ∧ ((m <<< (t + k - t).toNat : Nat) * 2 ^ t : ℚ) = _
  rw [add_sub_cancel_left, Int.toNat_natCast, Nat.shiftLeft_eq, zpow_add₀ two_ne_zero]
  refine ⟨Nat.le_mul_of_pos_right _ (by positivity), ?_⟩
  push_cast
  rw [zpow_natCast]
  ring

/-- A positive mantissa of at least 53 bits is rounded with a positive sign. -/
theorem normalize_of_long {m : Nat} {e : Int} (low : 2 ^ 52 ≤ m) (least : -1074 ≤ e) :
    UnpackedFloat.normalize .binary64 m e .positive =
      .roundWithAccuracy .binary64 .positive m e .exact := by
  unfold UnpackedFloat.normalize
  rw [compare_gt_iff_gt.2 (by omega)]
  exact round_of_long _ ((Nat.le_log2 (by omega)).2 low) least

/-- The sum of two positive numbers as doubles, if it is not too long.  Both mantissas are shifted to
the smaller of the two exponents. -/
theorem positive_add {a b : Nat} (ha : 0 < a) (hb : 0 < b) (bound : a + b ≤ exactBound) :
    ofInt a + ofInt b = ofInt (a + b : Nat) := by
  obtain ⟨m, e, pos, hunpack, -, low, least, hvalue⟩ :=
    exists_unpack (n := a) (by omega) (by omega)
  obtain ⟨m', e', pos', hunpack', -, low', least', hvalue'⟩ :=
    exists_unpack (n := b) (by omega) (by omega)
  obtain ⟨hlow, hshifted⟩ := decreaseExponent_value m (min_le_left e e')
  obtain ⟨hlow', hshifted'⟩ := decreaseExponent_value m' (min_le_right e e')
  show Float.ofModel (.pack (.add .binary64 (ofInt a).toModel.unpack (ofInt b).toModel.unpack)) = _
  rw [hunpack, hunpack', decide_eq_false (show ¬ (a : Int) < 0 by omega),
    decide_eq_false (show ¬ (b : Int) < 0 by omega)]
  show Float.ofModel (.pack (.normalize .binary64
    (((UnpackedFloat.decreaseExponent m e (min e e')).1 : Int) +
      ((UnpackedFloat.decreaseExponent m' e' (min e e')).1 : Int)) (min e e') .positive)) = _
  rw [← Nat.cast_add, normalize_of_long (by omega) (by omega)]
  refine ofModel_of_value (n := (a + b : Nat)) (by omega) bound (by omega) (by omega) ?_
  rw [Nat.cast_add, add_mul, hshifted, hshifted', hvalue, hvalue', Int.natAbs_natCast,
    Int.natAbs_natCast, Int.natAbs_natCast, Nat.cast_add]

/-- The sum of two natural numbers as doubles, if it is not too long. -/
theorem natural_add {a b : Nat} (bound : a + b ≤ exactBound) :
    ofInt a + ofInt b = ofInt (a + b : Nat) := by
  obtain rfl | ha := Nat.eq_zero_or_pos a <;> obtain rfl | hb := Nat.eq_zero_or_pos b
  · rfl
  · obtain ⟨m, e, pos, hunpack, hpack, -⟩ := exists_unpack (n := b) (by omega) (by omega)
    show Float.ofModel (.pack (.add .binary64 _ (ofInt b).toModel.unpack)) = _
    rw [unpack_zero, hunpack, Nat.zero_add, ← hpack]
    rfl
  · obtain ⟨m, e, pos, hunpack, hpack, -⟩ := exists_unpack (n := a) (by omega) (by omega)
    show Float.ofModel (.pack (.add .binary64 (ofInt a).toModel.unpack _)) = _
    rw [unpack_zero, hunpack, Nat.add_zero, ← hpack]
    rfl
  · exact positive_add ha hb bound

/-- A sign is put on a natural number by a product. -/
theorem signed_mul {n : Int} (bound : n.natAbs ≤ exactBound) :
    (if decide (n < 0) then -1 else 1) * ofInt n.natAbs = ofInt n := by
  by_cases negative : n < 0
  · rw [if_pos (decide_eq_true negative)]
    show ofInt (-1) * ofInt n.natAbs = _
    rw [ofInt_mul (by decide) (by omega) (by omega)]
    congr 1
    omega
  · obtain ⟨k, rfl⟩ := Int.eq_ofNat_of_zero_le (not_lt.1 negative)
    rw [Int.natAbs_natCast] at bound ⊢
    rw [if_neg (by simp)]
    show ofInt (1 : Nat) * ofInt k = _
    obtain rfl | pos := Nat.eq_zero_or_pos k
    · rfl
    · rw [natural_mul pos bound (by omega), Nat.one_mul]

/-- A natural number of at most 53 bits is the same double however it is made. -/
theorem ofNat_eq {n : Nat} (h : n < 2 ^ 53) : Float.ofNat n = ofInt n := by
  have hbound : exactBound = 2 ^ 53 := rfl
  have hword : n.toUInt64.toFloat = ofInt n := by
    show Float.ofModel (.pack (.normalize .binary64 (n.toUInt64.toNat : Int) 0 .positive)) = _
    rw [UInt64.toNat_ofNat_of_lt' (by show n < 2 ^ 64; omega)]
    obtain rfl | pos := Nat.eq_zero_or_pos n
    · rfl
    · unfold UnpackedFloat.normalize
      rw [compare_gt_iff_gt.2 (by omega)]
      show _ = ofScaled ((n : Int) < 0) n 0
      rw [decide_eq_false (by omega)]
      rfl
  show Float.ofScientific n false 0 = _
  unfold Float.ofScientific
  rw [dif_pos ⟨h, by decide⟩]
  show n.toUInt64.toFloat * ofInt (1 : Nat) = _
  rw [hword, natural_mul (by decide) (by decide) (by omega), Nat.mul_one]

/-! ## Digits in a base -/

section

variable {base n d : Nat}

/-- A digit is read as the number that it was written for. -/
theorem digitValue?_digitChar (hd : d < base) (high : base ≤ 36) :
    digitValue? base (digitChar d) = some d := by
  have hread : digitValue? base (digitChar d) = (some d).filter (· < base) := by
    have hd' : d < 36 := by omega
    clear hd high
    interval_cases d <;> rfl
  rw [hread]
  simpa using hd

/-- Division by the base takes the last digit off. -/
theorem inBase_of_le (low : 2 ≤ base) (h : base ≤ n) :
    inBase base n = inBase base (n / base) ++ [digitChar (n % base)] := by
  have hfront : n / base ≠ 0 := (Nat.div_pos h (by omega)).ne'
  unfold inBase
  rw [if_neg (by omega), if_neg hfront, digitsReversed, dif_pos ⟨low, by omega⟩, List.reverse_cons]

theorem inBase_of_lt (h : n < base) : inBase base n = [digitChar n] := by
  unfold inBase
  split
  · next hn => rw [hn]; rfl
  · next hn =>
    rw [digitsReversed, dif_pos (by omega), Nat.div_eq_of_lt h, Nat.mod_eq_of_lt h, digitsReversed,
      dif_neg (by omega)]
    rfl

/-- A number is less than the base, or is made of another one and a last digit. -/
theorem base_induction {motive : Nat → Prop} (low : 2 ≤ base) (one : ∀ d < base, motive d)
    (more : ∀ n, base ≤ n → motive (n / base) → motive n) (n : Nat) : motive n := by
  induction n using Nat.strong_induction_on with
  | _ n ih =>
    by_cases h : n < base
    · exact one n h
    · exact more n (not_lt.1 h) (ih _ (Nat.div_lt_self (by omega) low))

/-- In base ten the digits are those that numbers are written with. -/
theorem inBase_ten (n : Nat) : inBase 10 n = digits n := by
  have hchar : ∀ d < 10, digitChar d = Nat.digitChar d := by decide
  induction n using base_induction (show 2 ≤ 10 by decide) with
  | one d hd =>
    unfold digits
    rw [inBase_of_lt hd, Nat.toDigits_of_lt_base hd, hchar d hd]
  | more n h ih =>
    unfold digits at ih ⊢
    rw [inBase_of_le (by decide) h, Nat.toDigits_of_base_le (by decide) h, ih,
      hchar _ (Nat.mod_lt _ (by decide))]

/-- The characters that stand for digits in a base. -/
def digitChars (base : Nat) : List Char :=
  "0123456789abcdefghijklmnopqrstuvwxyz".toList.take base

theorem digitChar_mem (hd : d < base) (high : base ≤ 36) : digitChar d ∈ digitChars base := by
  have hchars : ∀ d < 36, "0123456789abcdefghijklmnopqrstuvwxyz".toList[d]? = some (digitChar d) := by
    decide
  refine List.mem_of_getElem? (i := d) ?_
  unfold digitChars
  rw [List.getElem?_take_of_lt hd, hchars d (by omega)]

/-- A numeral in a base has digits of the base only, in lower case, and no zero in front of others. -/
structure Numeral (base : Nat) (ds : List Char) : Prop where
  nonempty : ds ≠ []
  digits : ∀ c ∈ ds, c ∈ digitChars base
  lead : ds.head? = some '0' → ds = ['0']

theorem mem_inBase (low : 2 ≤ base) (high : base ≤ 36) {c : Char} (h : c ∈ inBase base n) :
    ∃ d < base, c = digitChar d := by
  induction n using base_induction low with
  | one d hd =>
    rw [inBase_of_lt hd, List.mem_singleton] at h
    exact ⟨d, hd, h⟩
  | more n hn ih =>
    rw [inBase_of_le low hn, List.mem_append, List.mem_singleton] at h
    exact h.elim ih fun h => ⟨_, Nat.mod_lt _ (by omega), h⟩

theorem inBase_ne_nil (low : 2 ≤ base) (n : Nat) : inBase base n ≠ [] := by
  induction n using base_induction low with
  | one d hd =>
    rw [inBase_of_lt hd]
    exact List.cons_ne_nil _ _
  | more n hn _ =>
    rw [inBase_of_le low hn]
    exact List.append_ne_nil_of_right_ne_nil _ (List.cons_ne_nil _ _)

theorem head?_inBase (low : 2 ≤ base) (high : base ≤ 36) (pos : 0 < n) :
    (inBase base n).head? ≠ some '0' := by
  induction n using base_induction low with
  | one d hd =>
    rw [inBase_of_lt hd]
    intro h
    have hread := digitValue?_digitChar hd high
    rw [Option.some.inj h] at hread
    exact pos.ne (Option.some.inj ((digitValue?_digitChar (by omega) high).symm.trans hread))
  | more n hn ih =>
    have hfront := Nat.div_pos hn (show 0 < base by omega)
    rw [inBase_of_le low hn, List.head?_append_of_ne_nil _ (inBase_ne_nil low _)]
    exact ih hfront

theorem numeral_inBase (low : 2 ≤ base) (high : base ≤ 36) (n : Nat) : Numeral base (inBase base n) := by
  refine ⟨inBase_ne_nil low n, fun c hc => ?_, fun h => ?_⟩
  · obtain ⟨d, hd, rfl⟩ := mem_inBase low high hc
    exact digitChar_mem hd high
  · obtain rfl | pos := Nat.eq_zero_or_pos n
    · rfl
    · exact absurd h (head?_inBase low high pos)

/-! ## Reading -/

/-- One more digit makes the number as many times larger as the base says, and adds its own. -/
theorem leadingInteger?_append {cs : List Char} (hcs : ∀ c ∈ cs, ∃ d < base, c = digitChar d)
    (hd : d < base) (high : base ≤ 36) : leadingInteger? base (cs ++ [digitChar d]) =
      some ((leadingInteger? base cs).getD 0 * Float.ofNat base + Float.ofNat d) := by
  have hsome : ∀ v ∈ cs.map (digitValue? base), v.isSome = true := by
    simp only [List.mem_map]
    rintro _ ⟨c, hc, rfl⟩
    obtain ⟨d, hd, rfl⟩ := hcs c hc
    rw [digitValue?_digitChar hd high]
    rfl
  unfold leadingInteger?
  rw [List.map_append, List.takeWhile_append_of_pos hsome, List.map_singleton,
    digitValue?_digitChar hd high, List.takeWhile_eq_self_iff.2 hsome,
    List.takeWhile_eq_self_iff.2 (by simp), List.reduceOption_append, List.reduceOption_singleton,
    List.foldl_append]
  rfl

/-- The digits of a number are read as the number. -/
theorem leadingInteger?_inBase (low : 2 ≤ base) (high : base ≤ 36) (bound : n ≤ exactBound) :
    leadingInteger? base (inBase base n) = some (ofInt n) := by
  have hbound : exactBound = 2 ^ 53 := rfl
  induction n using base_induction low with
  | one d hd =>
    rw [inBase_of_lt hd, ← List.nil_append [digitChar d], leadingInteger?_append (by simp) hd high,
      ofNat_eq (by omega), ofNat_eq (by omega)]
    show some (ofInt (0 : Nat) * ofInt base + ofInt d) = _
    rw [natural_mul (by omega) (by omega) (by omega), natural_add (by omega), Nat.zero_mul,
      Nat.zero_add]
  | more n hn ih =>
    have hlast : n % base < base := Nat.mod_lt _ (by omega)
    have hsum : n / base * base + n % base = n := Nat.div_add_mod' n base
    rw [inBase_of_le low hn, leadingInteger?_append (fun c => mem_inBase low high) hlast high,
      ih ((Nat.div_le_self _ _).trans bound), Option.getD_some, ofNat_eq (by omega),
      ofNat_eq (by omega), natural_mul (by omega) (by omega) (by omega), natural_add (by omega), hsum]

/-- A numeral is neither trimmed nor does it begin with a sign. -/
theorem takeSign_inBase (low : 2 ≤ base) (high : base ≤ 36) (negative : Bool) (n : Nat) :
    takeSign (Text.trimStart ((if negative then ['-'] else []) ++ inBase base n)) =
      (negative, inBase base n) := by
  cases negative with
  | true => rfl
  | false =>
    have hplain : ∀ d < 36, Text.isBlank (digitChar d) = false ∧ digitChar d ≠ '+' ∧
        digitChar d ≠ '-' := by decide
    obtain ⟨c, cs, hds⟩ := List.exists_cons_of_ne_nil (inBase_ne_nil low n)
    obtain ⟨d, hd, rfl⟩ := mem_inBase low high (hds ▸ List.mem_cons_self : c ∈ inBase base n)
    obtain ⟨hblank, hplus, hminus⟩ := hplain d (by omega)
    have htrim : Text.trimStart (digitChar d :: cs) = digitChar d :: cs :=
      List.dropWhile_cons_of_neg (by rw [hblank]; decide)
    show takeSign (Text.trimStart (inBase base n)) = _
    rw [hds, htrim]
    unfold takeSign
    split
    · next h => exact absurd (List.cons.inj h).1 hplus
    · next h => exact absurd (List.cons.inj h).1 hminus
    · rfl

/-- A numeral is read as the integer that it was written for; it does not begin with a mark. -/
theorem leadingInteger_inBase (low : 2 ≤ base) (high : base ≤ 36) {n : Int}
    (bound : n.natAbs ≤ exactBound) :
    leadingInteger base (String.ofList ((if n < 0 then ['-'] else []) ++ inBase base n.natAbs)) =
      ofInt n := by
  have hsign := takeSign_inBase low high (n < 0) n.natAbs
  have hread := leadingInteger?_inBase low high bound
  have hlead := (numeral_inBase low high n.natAbs).lead
  simp only [decide_eq_true_eq] at hsign
  unfold leadingInteger
  rw [if_neg (by omega), String.toList_ofList, hsign]
  generalize inBase base n.natAbs = ds at hread hlead
  simp only
  -- where a numeral begins with a zero, nothing follows that could be a mark
  split
  · next y h =>
    split at h
    · exact absurd (hlead rfl) (by simp)
    · obtain rfl := Option.some.inj (hread.symm.trans h)
      exact signed_mul bound
  · next h =>
    split at h
    · exact absurd (hlead rfl) (by simp)
    · cases hread.symm.trans h

end

end Number

namespace Script

variable {x : Float} {n : Int} {base : Nat}

theorem inBase_of_integer (bound : n.natAbs ≤ Number.exactBound)
    (hx : Number.value? x = some (n : ℚ)) :
    inBase base x =
      String.ofList ((if n < 0 then ['-'] else []) ++ Number.inBase base n.natAbs) := by
  have hbound : Number.exactBound = 2 ^ 53 := rfl
  have htext := Number.text_of_integer hx (by omega)
  obtain ⟨negative, m, e, hexact, hwhole, hpart, hn⟩ := Number.exists_whole hx
  have hsign : (negative && decide (Number.Exact.whole m e ≠ 0)) = decide (n < 0) := by
    cases negative with
    | false => simp [hn]
    | true => simp [hn, Nat.pos_iff_ne_zero]
  unfold inBase
  rw [hexact]
  simp only [hwhole, hpart] at hsign ⊢
  by_cases hten : base = 10
  · rw [if_pos (.inl hten), htext, hten, Number.inBase_ten]
  · rw [if_neg (by simpa [hten] using bound), hsign]
    simp only [decide_eq_true_eq]

/-- The bases that there are. -/
theorem within_bases (low : 2 ≤ base) (high : base ≤ 36) :
    (2 ≤ Number.ofInt base && Number.ofInt base ≤ 36) = true := by
  have hvalue (n : Nat) (h : n ≤ 36) : Number.value? (Number.ofInt n) = some ((n : Int) : ℚ) :=
    Number.value?_ofInt (h.trans (by decide))
  rw [Bool.and_eq_true, decide_eq_true_iff, decide_eq_true_iff]
  exact ⟨(Number.le_iff_of_value (hvalue 2 (by decide)) (hvalue base high)).2 (by exact_mod_cast low),
    (Number.le_iff_of_value (hvalue base high) (hvalue 36 (by decide))).2 (by exact_mod_cast high)⟩

theorem numberText_of_ne {r : Native} (h : r ≠ .undefined) (s : Store) (x : Float) :
    numberText s x r =
      if Number.isIntegral (r.toNumber s) && 2 ≤ r.toNumber s && r.toNumber s ≤ 36 then
        .ok (inBase (Number.clamped 2 36 (r.toNumber s)).toNat x)
      else .error (.runtime "toString() radix must be between 2 and 36") := by
  cases r with
  | undefined => exact absurd rfl h
  | _ => rfl

theorem callBuiltin_parseInt {r : Native} (h : r ≠ .undefined) (s : Store) (t : String) :
    Run.callBuiltin .parseInt [.string t, r] s = .ok (.number (Number.leadingInteger
      (Number.clamped 0 (UInt32.size - 1) (r.toNumber s)).toNat t)) s := by
  cases r with
  | undefined => exact absurd rfl h
  | _ => rfl

/-- What the method `toString` of an integer writes in a base is a numeral after the sign of the
integer, and `parseInt` reads the integer from it. -/
theorem toString_parseInt (e : Engine) (s : Store) {x : Float} {n : Int} {base : Nat} {r : Native}
    (bound : n.natAbs ≤ Number.exactBound) (hx : Number.value? x = some (n : ℚ)) (low : 2 ≤ base)
    (high : base ≤ 36) (hr : Number.value? (r.toNumber s) = some (base : ℚ)) :
    ∃ (t : String) (ds : List Char), t = String.ofList ((if n < 0 then ['-'] else []) ++ ds) ∧
      Number.Numeral base ds ∧
      e.callMethod (.number x) "toString" [r] s = .ok (.string t) s ∧
      Run.callBuiltin .parseInt [.string t, r] s = .ok (.number (Number.ofInt n)) s := by
  have hbound : Number.exactBound = 2 ^ 53 := rfl
  have hbase : r.toNumber s = Number.ofInt base :=
    Number.eq_of_value hr (Number.value?_ofInt (n := base) (by omega)) (by
      exact_mod_cast (by omega : base ≠ 0))
  have hgiven : r ≠ .undefined := by
    rintro rfl
    cases hr.symm.trans (show Number.value? Number.nan = none from rfl)
  rw [hbase] at hr
  have hclamped (lo hi : Int) (hlo : lo ≤ base) (hhi : base ≤ hi) :
      (Number.clamped lo hi (Number.ofInt base)).toNat = base := by
    rw [Number.clamped_of_value (n := base) hr]
    omega
  refine ⟨_, Number.inBase base n.natAbs, rfl, Number.numeral_inBase low high _, ?_, ?_⟩
  · show Run.ofExcept ((numberText s x r).map Native.string) s = _
    rw [numberText_of_ne hgiven, hbase, (Number.truncated?_of_value (n := base) hr).1, Bool.true_and,
      if_pos (within_bases low high), hclamped 2 36 (by omega) (by omega), inBase_of_integer bound hx]
    rfl
  · rw [callBuiltin_parseInt hgiven, hbase,
      hclamped _ _ (by omega) (by show (base : Int) ≤ 4294967296 - 1; omega),
      Number.leadingInteger_inBase low high bound]

/-- The least integer that a double holds exactly, in the largest base. -/
theorem toString_parseInt_least :
    Number.value? (Number.ofInt (-9007199254740992)) = some ((-9007199254740992 : Int) : ℚ) ∧
    ∃ (t : String) (ds : List Char), t = String.ofList ('-' :: ds) ∧ Number.Numeral 36 ds ∧
      Engine.standard.callMethod (.number (Number.ofInt (-9007199254740992))) "toString"
        [.number (Number.ofInt 36)] Store.empty = .ok (.string t) Store.empty ∧
      Run.callBuiltin .parseInt [.string t, .number (Number.ofInt 36)] Store.empty =
        .ok (.number (Number.ofInt (-9007199254740992))) Store.empty :=
  have hleast := Number.value?_ofInt (n := -9007199254740992) (by decide)
  ⟨hleast, toString_parseInt Engine.standard Store.empty (by decide) hleast (show 2 ≤ 36 by decide)
    (by decide) (Number.value?_ofInt (n := 36) (by decide))⟩

end Script
end Workbook
