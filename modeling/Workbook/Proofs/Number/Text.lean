/-
Numbers as the languages write them.

A number is written in one way by the languages (`text`) and in another where a literal is named
(`literalText`): the languages write an integer below `10 ^ 21` digit by digit, and all else is written
by its shortest decimal.  The shortest decimal of an integer below `2 ^ 53` is the integer
(`Shortest.shortest_natural`), because no other integer is read back as its double.  So the two ways
agree on all numbers without a sign but the integers in between (`literalText_eq_text`).

A literal of digits is named by its digits without zeros in front, and these are the digits of the
number that they write (`digits_ofDigits`).
-/
import Mathlib
import Workbook.Number.Notation
import Workbook.Number.Reading
import Workbook.Proofs.Number.Order

namespace Workbook
namespace Number

/-! ## Digits -/

theorem digitChar_of_isDigit {c : Char} (h : c.isDigit = true) :
    c.toNat - 48 < 10 ∧ Nat.digitChar (c.toNat - 48) = c := by
  obtain ⟨low, high⟩ : 48 ≤ c.toNat ∧ c.toNat ≤ 57 := by
    simpa [Char.isDigit, UInt32.le_iff_toNat_le] using h
  refine ⟨by omega, ?_⟩
  rw [← c.ofNat_toNat]
  generalize c.toNat = n at low high ⊢
  interval_cases n <;> rfl

/-- Digits without a zero in front are the digits of the number that they write. -/
theorem digits_ofDigits {ds : List Char} (hdigits : ∀ c ∈ ds, c.isDigit = true) (hne : ds ≠ [])
    (lead : ds.head? ≠ some '0') : digits (ofDigits ds) = ds := by
  induction ds using List.reverseRecOn with
  | nil => exact absurd rfl hne
  | append_singleton ds c ih =>
    obtain ⟨hc, hchar⟩ := digitChar_of_isDigit (hdigits c (by simp))
    have hlast : ofDigits (ds ++ [c]) = 10 * ofDigits ds + (c.toNat - 48) := by
      unfold ofDigits
      rw [List.foldl_append]
      rfl
    by_cases hnil : ds = []
    · subst hnil
      rw [hlast]
      show Nat.toDigits 10 (0 + (c.toNat - 48)) = [c]
      rw [Nat.zero_add, Nat.toDigits_of_lt_base hc, hchar]
    · have hbefore := ih (fun d hd => hdigits d (by simp [hd])) hnil
        (by rwa [List.head?_append_of_ne_nil _ hnil] at lead)
      have hpos : 0 < ofDigits ds := by
        refine Nat.pos_of_ne_zero fun hzero => lead ?_
        rw [List.head?_append_of_ne_nil _ hnil, ← hbefore, hzero]
        rfl
      rw [hlast]
      unfold digits at hbefore ⊢
      rw [← Nat.toDigits_append_toDigits (by decide) hpos hc, hbefore, Nat.toDigits_of_lt_base hc,
        hchar]

/-- Zeros behind a number multiply it by ten. -/
theorem digits_mul_pow {n : Nat} (pos : 0 < n) (k : Nat) :
    digits (n * 10 ^ k) = digits n ++ List.replicate k '0' := by
  induction k with
  | zero => simp
  | succ k ih =>
    have hten : n * 10 ^ (k + 1) = 10 * (n * 10 ^ k) + 0 := by ring
    unfold digits at ih ⊢
    rw [hten, ← Nat.toDigits_append_toDigits (by decide) (by positivity) (by decide), ih,
      List.append_assoc, List.replicate_succ']
    rfl

/-! ## Shortest decimals of integers -/

/-- A decimal that stands for an integer is written with all digits of the integer. -/
theorem layout_plain {c : Nat} (pos : 0 < c) (k : Nat) :
    plain.layout ⟨c, k⟩ = digits (c * 10 ^ k) := by
  have hlength : 0 < (digits c).length := Nat.length_toDigits_pos
  show Notation.positional false (digits c) ((digits c).length + k) = _
  unfold Notation.positional
  simp only
  rw [if_neg (by omega), if_neg (by omega), digits_mul_pow pos,
    show ((digits c).length + k - (digits c).length : Int).toNat = k by omega]
  simp

/-- Zeros are taken from the coefficient to the exponent. -/
theorem exists_strip {c : Nat} (pos : 0 < c) (k : Nat) :
    ∃ c' k', 0 < c' ∧ Decimal.strip c k = ⟨c', (k' : Nat)⟩ ∧ c' * 10 ^ k' = c * 10 ^ k := by
  induction c using Nat.strong_induction_on generalizing k with
  | _ c ih =>
    by_cases h : c ≠ 0 ∧ c % 10 = 0
    · obtain ⟨c', k', hpos, hstrip, hvalue⟩ := ih (c / 10) (by omega) (by omega) (k + 1)
      refine ⟨c', k', hpos, ?_, ?_⟩
      · rw [Decimal.strip, dif_pos h]
        exact hstrip
      · rw [hvalue, pow_succ, ← Nat.mul_assoc, Nat.mul_right_comm,
          Nat.div_mul_cancel (Nat.dvd_of_mod_eq_zero h.2)]
    · exact ⟨c, k, pos, by rw [Decimal.strip, dif_neg h], rfl⟩

namespace Shortest

namespace Ratio

/-- The number that a ratio stands for. -/
def value (r : Ratio) : ℚ :=
  r.num / r.den

theorem le_iff {a b : Ratio} (ha : 0 < a.den) (hb : 0 < b.den) :
    a.le b = true ↔ a.value ≤ b.value := by
  have ha' : (0 : ℚ) < a.den := by exact_mod_cast ha
  have hb' : (0 : ℚ) < b.den := by exact_mod_cast hb
  unfold le value
  rw [decide_eq_true_iff, div_le_div_iff₀ ha' hb']
  exact_mod_cast Iff.rfl

theorem lt_iff {a b : Ratio} (ha : 0 < a.den) (hb : 0 < b.den) :
    a.lt b = true ↔ a.value < b.value := by
  have ha' : (0 : ℚ) < a.den := by exact_mod_cast ha
  have hb' : (0 : ℚ) < b.den := by exact_mod_cast hb
  unfold lt value
  rw [decide_eq_true_iff, div_lt_div_iff₀ ha' hb']
  exact_mod_cast Iff.rfl

theorem den_ofScaled (m : Nat) (e : Int) : 0 < (ofScaled m e).den := by
  unfold ofScaled
  split
  · simp [Nat.one_shiftLeft]
  · exact Nat.one_pos

theorem value_ofScaled (m : Nat) (e : Int) : (ofScaled m e).value = m * 2 ^ e := by
  unfold ofScaled value
  by_cases he : e < 0
  · obtain ⟨j, rfl⟩ : ∃ j : Nat, e = -j := ⟨(-e).toNat, by omega⟩
    rw [if_pos he]
    simp [Nat.one_shiftLeft, div_eq_mul_inv]
  · obtain ⟨j, rfl⟩ : ∃ j : Nat, e = j := ⟨e.toNat, by omega⟩
    rw [if_neg he]
    simp [Nat.shiftLeft_eq]

theorem value_ofDecimal (c k : Nat) : (ofDecimal c k).value = (c * 10 ^ k : Nat) := by
  show (((c * 10 ^ k : Nat) : ℚ) / (1 : Nat)) = _
  rw [Nat.cast_one, div_one]

theorem num_of_value {r : Ratio} {n : Nat} (hr : 0 < r.den) (h : r.value = n) : r.num = n * r.den := by
  have hr' : (r.den : ℚ) ≠ 0 := by exact_mod_cast hr.ne'
  unfold value at h
  rw [div_eq_iff hr'] at h
  exact_mod_cast h

/-- The quotient by a power of ten. -/
theorem divTen_of_value {r : Ratio} {n : Nat} (hr : 0 < r.den) (h : r.value = n) (k : Nat) :
    r.divTen k = n / 10 ^ k := by
  show r.num / (r.den * 10 ^ k) = _
  rw [num_of_value hr h, Nat.mul_comm n, Nat.mul_div_mul_left _ _ hr]

/-- An integer is below a power of ten or not. -/
theorem lt_power_iff {r : Ratio} {n : Nat} (hr : 0 < r.den) (h : r.value = n) (k : Nat) :
    r.lt (ofDecimal 1 k) = true ↔ n < 10 ^ k := by
  rw [lt_iff hr Nat.one_pos, h, value_ofDecimal, Nat.one_mul, Nat.cast_lt]

/-- A power of ten that a positive integer is below has a positive exponent. -/
theorem pos_of_lt_power {r : Ratio} {n : Nat} (hr : 0 < r.den) (h : r.value = n) (pos : 0 < n) {i : Int}
    (hlt : r.lt (ofDecimal 1 i) = true) : 0 < i := by
  by_contra hi
  have hpower : 0 < (ofDecimal 1 i).den ∧ (ofDecimal 1 i).value ≤ 1 := by
    unfold ofDecimal value
    split
    · refine ⟨Nat.pow_pos (by decide), ?_⟩
      rw [Nat.cast_one]
      exact div_le_one_of_le₀ (by exact_mod_cast Nat.one_le_pow _ _ (by decide)) (Nat.cast_nonneg _)
    · rw [show i = 0 by omega]
      exact ⟨Nat.one_pos, by norm_num⟩
  rw [lt_iff hr hpower.1, h] at hlt
  have hone : (1 : ℚ) ≤ n := by exact_mod_cast pos
  exact absurd (hone.trans_lt hlt) (not_lt.2 hpower.2)

end Ratio

/-- The ends around a double are half a place away, or a quarter below a power of two. -/
theorem exists_ends {m : Nat} (pos : 0 < m) (e : Int) : ∃ a : Nat, 4 * m ≤ a + 2 ∧ a < 4 * m ∧
    (interval m e).low = Ratio.ofScaled a (e - 2) ∧
    (interval m e).high = Ratio.ofScaled (4 * m + 2) (e - 2) := by
  refine ⟨_, ?_, ?_, rfl, rfl⟩ <;> split <;> omega

/-- What an interval holds lies between its ends, and what lies strictly between them it holds. -/
theorem Interval.contains_bounds {i : Interval} {r : Ratio} (hlow : 0 < i.low.den)
    (hhigh : 0 < i.high.den) (hr : 0 < r.den) :
    (i.contains r = true → i.low.value ≤ r.value ∧ r.value ≤ i.high.value) ∧
      (i.low.value < r.value → r.value < i.high.value → i.contains r = true) := by
  unfold Interval.contains
  split
  · rw [Bool.and_eq_true, Ratio.le_iff hlow hr, Ratio.le_iff hr hhigh]
    exact ⟨id, fun h h' => ⟨h.le, h'.le⟩⟩
  · rw [Bool.and_eq_true, Ratio.lt_iff hlow hr, Ratio.lt_iff hr hhigh]
    exact ⟨fun h => ⟨h.1.le, h.2.le⟩, fun h h' => ⟨h, h'⟩⟩

section

variable {m n : Nat} {e : Int} (pos : 0 < n) (he : e ≤ 0) (hvalue : (m * 2 ^ e : ℚ) = n)

include pos he hvalue in
/-- The only integer that is read back as a double with an integer value is this value. -/
theorem contains_interval_iff (c k : Nat) :
    (interval m e).contains (Ratio.ofDecimal c k) = true ↔ c * 10 ^ k = n := by
  have hunit : (0 : ℚ) < 2 ^ (e - 2) := by positivity
  have hquarter : (2 : ℚ) ^ e = 4 * 2 ^ (e - 2) := by
    rw [zpow_sub₀ two_ne_zero]
    norm_num
    ring
  have hsmall : 4 * (2 : ℚ) ^ (e - 2) ≤ 1 := by
    rw [← hquarter]
    exact zpow_le_one_of_nonpos₀ one_le_two he
  have hm : 0 < m := by
    refine Nat.pos_of_ne_zero ?_
    rintro rfl
    rw [Nat.cast_zero, zero_mul] at hvalue
    exact absurd hvalue (by exact_mod_cast pos.ne)
  obtain ⟨a, hleast, hmost, hlow, hhigh⟩ := exists_ends hm e
  have hleast' : 4 * m * 2 ^ (e - 2) ≤ (a + 2) * (2 : ℚ) ^ (e - 2) :=
    mul_le_mul_of_nonneg_right (by exact_mod_cast hleast) hunit.le
  have hmost' : a * 2 ^ (e - 2) < 4 * m * (2 : ℚ) ^ (e - 2) :=
    mul_lt_mul_of_pos_right (by exact_mod_cast hmost) hunit
  obtain ⟨hbetween, hcontains⟩ := Interval.contains_bounds (i := interval m e)
    (r := Ratio.ofDecimal c k) (hlow ▸ Ratio.den_ofScaled _ _) (hhigh ▸ Ratio.den_ofScaled _ _)
    Nat.one_pos
  rw [hlow, hhigh, Ratio.value_ofScaled, Ratio.value_ofScaled, Ratio.value_ofDecimal]
    at hbetween hcontains
  push_cast at hbetween hcontains
  rw [hquarter] at hvalue
  constructor
  · intro h
    obtain ⟨hle, hge⟩ := hbetween h
    have hbelow : (n : ℚ) < (c * 10 ^ k : ℚ) + 1 := by linarith
    have habove : (c * 10 ^ k : ℚ) < n + 1 := by linarith
    have hbelow' : n < c * 10 ^ k + 1 := by exact_mod_cast hbelow
    have habove' : c * 10 ^ k < n + 1 := by exact_mod_cast habove
    omega
  · intro h
    have hn : (c * 10 ^ k : ℚ) = n := by exact_mod_cast h
    rw [hn] at hcontains
    refine hcontains ?_ ?_ <;> linarith

include pos he hvalue in
/-- On a grid of integers the value is found if it is on the grid, and nothing else is. -/
theorem onGrid_natural (tie : Tie) (k : Nat) :
    onGrid tie (interval m e) (Ratio.ofScaled m e) k =
      if 10 ^ k ∣ n then some ⟨n / 10 ^ k, k⟩ else none := by
  have hdiv : (Ratio.ofScaled m e).divTen k = n / 10 ^ k :=
    Ratio.divTen_of_value (Ratio.den_ofScaled m e) ((Ratio.value_ofScaled m e).trans hvalue) k
  have hten : 0 < 10 ^ k := by positivity
  have hhigh : (interval m e).contains (Ratio.ofDecimal (n / 10 ^ k + 1) k) = false := by
    rw [Bool.eq_false_iff, Ne, contains_interval_iff pos he hvalue]
    have := Nat.lt_div_mul_add hten (a := n)
    rw [Nat.add_mul, Nat.one_mul]
    omega
  have hlow : (n / 10 ^ k ≠ 0 && (interval m e).contains (Ratio.ofDecimal (n / 10 ^ k) k)) =
      decide (10 ^ k ∣ n) := by
    rw [Bool.eq_iff_iff, Bool.and_eq_true, decide_eq_true_iff, decide_eq_true_iff,
      contains_interval_iff pos he hvalue, ← Nat.dvd_iff_div_mul_eq]
    refine and_iff_right_of_imp fun hdvd => ?_
    exact (Nat.div_pos (Nat.le_of_dvd pos hdvd) hten).ne'
  unfold onGrid
  simp only [hdiv, hhigh, hlow]
  simp

include pos he hvalue in
/-- The estimate of the number of decimal digits from the binary ones. -/
theorem exists_estimate (high : n < 2 ^ 53) : ∃ estimate : Nat, estimate < 16 ∧
    ((Ratio.ofScaled m e).num.log2 - (Ratio.ofScaled m e).den.log2 : Int) * 30103 / 100000 =
      estimate := by
  have hnum := Ratio.num_of_value (Ratio.den_ofScaled m e) ((Ratio.value_ofScaled m e).trans hvalue)
  have hpower : (Ratio.ofScaled m e).den = 2 ^ (-e).toNat := by
    unfold Ratio.ofScaled
    split
    · exact Nat.one_shiftLeft _
    · rw [show (-e).toNat = 0 by omega]
      rfl
  have hbinary : (Ratio.ofScaled m e).num.log2 = n.log2 + (-e).toNat := by
    obtain ⟨low, above⟩ := (Nat.log2_eq_iff pos.ne').1 (rfl : n.log2 = n.log2)
    rw [hnum, hpower, Nat.log2_eq_iff (by positivity), Nat.add_right_comm, Nat.pow_add, Nat.pow_add]
    exact ⟨Nat.mul_le_mul_right _ low, Nat.mul_lt_mul_of_pos_right above (by positivity)⟩
  have hlog : n.log2 < 53 := (Nat.log2_lt pos.ne').2 high
  rw [hbinary, hpower, Nat.log2_two_pow]
  exact ⟨n.log2 * 30103 / 100000, by omega, by omega⟩

include pos he hvalue in
/-- The place of the first digit is found among seventeen. -/
theorem order_natural (high : n < 2 ^ 53) :
    ∃ k : Nat, order (Ratio.ofScaled m e) = k + 1 ∧ k < 17 := by
  have hden := Ratio.den_ofScaled m e
  have hv : (Ratio.ofScaled m e).value = n := (Ratio.value_ofScaled m e).trans hvalue
  obtain ⟨estimate, hmost, hestimate⟩ := exists_estimate pos he hvalue high
  -- there are no more than sixteen digits
  have hfew (k : Nat) (h : ¬ (Ratio.ofScaled m e).lt (Ratio.ofDecimal 1 k)) : k < 16 := by
    rw [Ratio.lt_power_iff hden hv] at h
    by_contra hk
    have : 10 ^ 16 ≤ 10 ^ k := Nat.pow_le_pow_right (by decide) (by omega)
    omega
  unfold order
  simp only [hestimate]
  cases hfind : (List.range 5).find? fun (i : Nat) =>
      (Ratio.ofScaled m e).lt (.ofDecimal 1 (estimate - 1 + i)) with
  | none =>
    have hlast := List.find?_range_eq_none.1 hfind 4 (by decide)
    rw [show (estimate - 1 + (4 : Nat) : Int) = (estimate + 3 : Nat) by omega, Bool.not_eq_true',
      ← Bool.not_eq_true] at hlast
    exact ⟨estimate + 3, rfl, (hfew _ hlast).trans (by decide)⟩
  | some i =>
    obtain ⟨hfound, hi, hbefore⟩ := List.find?_range_eq_some.1 hfind
    rw [List.mem_range] at hi
    have hplace := Ratio.pos_of_lt_power hden hv pos hfound
    refine ⟨estimate + i - 2, ?_, ?_⟩
    · show (estimate - 1 + i : Int) = (estimate + i - 2 : Nat) + 1
      omega
    · cases i with
      | zero => omega
      | succ i =>
        have hearlier := hbefore i (Nat.lt_succ_self i)
        rw [show (estimate - 1 + i : Int) = (estimate + (i + 1) - 2 : Nat) by omega, Bool.not_eq_true',
          ← Bool.not_eq_true] at hearlier
        exact (hfew _ hearlier).trans (by decide)

include pos he hvalue in
/-- The shortest decimal of an integer below `2 ^ 53` is the integer itself, zeros left out. -/
theorem shortest_natural (tie : Tie) (high : n < 2 ^ 53) :
    ∃ c k, 0 < c ∧ shortest tie m e = ⟨c, (k : Nat)⟩ ∧ c * 10 ^ k = n := by
  obtain ⟨top, htop, hfew⟩ := order_natural pos he hvalue high
  have hgrid (i : Nat) (hi : i ≤ top) :
      onGrid tie (interval m e) (Ratio.ofScaled m e) (top + 1 - 1 - i) =
      if 10 ^ (top - i) ∣ n then some ⟨n / 10 ^ (top - i), (top - i : Nat)⟩ else none := by
    rw [show (top + 1 - 1 - i : Int) = (top - i : Nat) by omega, onGrid_natural pos he hvalue]
  have hrange : List.range 17 = List.range (top + 1) ++ (List.range (16 - top)).map (top + 1 + ·) := by
    rw [← List.range_add]
    congr 1
    omega
  obtain ⟨d, hd⟩ : ∃ d, (List.range (top + 1)).findSome? (fun (i : Nat) =>
      onGrid tie (interval m e) (Ratio.ofScaled m e) (top + 1 - 1 - i)) = some d := by
    rw [← Option.isSome_iff_exists, List.findSome?_isSome_iff]
    refine ⟨top, by simp, ?_⟩
    rw [hgrid top le_rfl]
    simp
  obtain ⟨i, hi, hfound⟩ := List.exists_of_findSome?_eq_some hd
  rw [List.mem_range] at hi
  rw [hgrid i (by omega)] at hfound
  unfold shortest
  simp only [htop, hrange, List.findSome?_append, hd, Option.some_or]
  split at hfound
  · next hdvd =>
    cases hfound
    have hquotient : 0 < n / 10 ^ (top - i) := Nat.div_pos (Nat.le_of_dvd pos hdvd) (by positivity)
    obtain ⟨c, k, hpos, hstrip, hn⟩ := exists_strip hquotient (top - i)
    exact ⟨c, k, hpos, hstrip, hn.trans (Nat.div_mul_cancel hdvd)⟩
  · cases hfound

end

end Shortest

/-! ## Numbers in both ways -/

variable {x : Float} {n : Nat}

/-- An integer that is not too long is written digit by digit, after its sign. -/
theorem text_of_integer {n : Int} (h : value? x = some (n : ℚ)) (short : n.natAbs < 10 ^ 21) :
    text x = String.ofList ((if n < 0 then ['-'] else []) ++ digits n.natAbs) := by
  obtain ⟨negative, m, e, hexact, hwhole, hpart, hn⟩ := exists_whole h
  have hsign : (negative && decide (m ≠ 0)) = decide (n < 0) := by
    have hzero : m = 0 ↔ Exact.whole m e = 0 := by
      have hvalue := Exact.value_of_isWhole hwhole
      rw [← Nat.cast_eq_zero (R := ℚ), ← Nat.cast_eq_zero (R := ℚ), ← hvalue, mul_eq_zero]
      exact (or_iff_left (by positivity)).symm
    cases negative with
    | false => simp [hn]
    | true => simp [hn, hzero, Nat.pos_iff_ne_zero]
  unfold text
  rw [hexact]
  simp only [hwhole, hpart, Bool.true_and, hsign, decide_eq_true_eq]
  exact if_pos short

/-- A natural number that is not too long is written digit by digit. -/
theorem text_of_value (h : value? x = some (n : ℚ)) (short : n < 10 ^ 21) :
    text x = String.ofList (digits n) := by
  rw [text_of_integer (n := n) (by exact_mod_cast h) short, if_neg (by omega)]
  rfl

/-- Where the two ways differ: between what doubles hold exactly and what is too long. -/
def Between (m : Nat) (e : Int) : Prop :=
  Exact.isWhole m e = true ∧ 2 ^ 53 ≤ Exact.whole m e ∧ Exact.whole m e < 10 ^ 21

/-- A double below `2 ^ 53` has no zeros behind its 53 digits. -/
theorem exponent_nonpos {m : Nat} {e : Int} (h : Exact.Digits m e) (small : Exact.whole m e < 2 ^ 53) :
    e ≤ 0 := by
  by_contra he
  obtain ⟨k, rfl⟩ : ∃ k : Nat, e = (k + 1 : Nat) := ⟨e.toNat - 1, by omega⟩
  have hfull : 2 ^ 52 ≤ m := h.full.resolve_left (by omega)
  have hwhole : Exact.whole m (k + 1 : Nat) = m * 2 ^ k * 2 := by
    show m <<< (k + 1) = _
    rw [Nat.shiftLeft_eq, pow_succ, Nat.mul_assoc]
  have hlow : m ≤ m * 2 ^ k := Nat.le_mul_of_pos_right m (by positivity)
  omega

/-- An integer below `2 ^ 53` is written digit by digit by its shortest decimal, too. -/
theorem plain_of_isWhole {m : Nat} {e : Int} (h : Exact.Digits m e) (hwhole : Exact.isWhole m e = true)
    (small : Exact.whole m e < 2 ^ 53) :
    plain.finite false m e = String.ofList (digits (Exact.whole m e)) := by
  have hvalue := Exact.value_of_isWhole hwhole
  have he := exponent_nonpos h small
  unfold Notation.finite
  by_cases hm : m = 0
  · subst hm
    rw [Nat.cast_zero, zero_mul] at hvalue
    rw [show Exact.whole 0 e = 0 by exact_mod_cast hvalue.symm]
    rfl
  · have pos : 0 < Exact.whole m e := by
      have : (0 : ℚ) < Exact.whole m e := by
        rw [← hvalue]
        positivity
      exact_mod_cast this
    obtain ⟨c, k, hc, hshortest, hn⟩ := Shortest.shortest_natural pos he hvalue plain.tie small
    rw [if_neg hm, hshortest, layout_plain hc, hn]
    rfl

/-- A number without a sign is written in the same way everywhere. -/
theorem literalText_eq_text {m : Nat} {e : Int} (h : exact x = .finite false m e)
    (outside : ¬ Between m e) : literalText x = text x := by
  have hdigits : Exact.Digits m e := by
    have hcanonical := exact_canonical x
    rwa [h] at hcanonical
  unfold literalText text
  rw [h]
  simp only [Bool.false_and, Bool.false_eq_true, if_false]
  split
  · next hshort =>
    rw [Bool.and_eq_true, decide_eq_true_eq] at hshort
    refine plain_of_isWhole hdigits hshort.1 (Nat.lt_of_not_le fun hlarge => ?_)
    exact outside ⟨hshort.1, hlarge, hshort.2⟩
  · rfl

end Number
end Workbook
