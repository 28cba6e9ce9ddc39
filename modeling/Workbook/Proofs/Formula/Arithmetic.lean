/-
Integers in formulas are exact.

Two integers of 64 bits are worked on as words as long as a word holds the result, and as integers of
any length otherwise.  Both ways come to the same (`wordArithmetic_eq`), so the operators do not depend
on the tags of their operands (`arithmetic_of_int`, `negate_of_int`).

They come to the exact sum, difference, product, remainder and quotient of integers, and the tag of the
result is that of 64 bits exactly if they hold it (`integers_are_exact`).  What is not exact is the
quotient of integers of which one does not divide the other: it is that of the nearest doubles, and
where this is not finite, there is none.  So a division can fail although it is not by zero
(`division_fails_without_zero`).
-/
import Mathlib
import Workbook.Engine
import Workbook.Proofs.Number

namespace Workbook

/-! ## Words -/

namespace Number

theorem fitsWord_toInt (a : Int64) : fitsWord a.toInt = true :=
  (toInt_ofInt_eq_iff _).1 (by rw [Int64.ofInt_toInt])

theorem exactly_ofInt (n : Int) :
    exactly (Int64.ofInt n) n = if fitsWord n then some (Int64.ofInt n) else none := by
  unfold exactly
  by_cases fits : fitsWord n = true
  · rw [if_pos fits, if_pos ((toInt_ofInt_eq_iff n).2 fits)]
  · rw [if_neg fits, if_neg (mt (toInt_ofInt_eq_iff n).1 fits)]

variable (a b : Int64)

theorem checkedAdd_eq :
    checkedAdd a b = exactly (.ofInt (a.toInt + b.toInt)) (a.toInt + b.toInt) := by
  rw [Int64.ofInt_add, Int64.ofInt_toInt, Int64.ofInt_toInt]
  rfl

theorem checkedSub_eq :
    checkedSub a b = exactly (.ofInt (a.toInt - b.toInt)) (a.toInt - b.toInt) := by
  rw [Int64.ofInt_sub, Int64.ofInt_toInt, Int64.ofInt_toInt]
  rfl

theorem checkedMul_eq :
    checkedMul a b = exactly (.ofInt (a.toInt * b.toInt)) (a.toInt * b.toInt) := by
  rw [Int64.ofInt_mul, Int64.ofInt_toInt, Int64.ofInt_toInt]
  rfl

theorem checkedNeg_eq : checkedNeg a = exactly (.ofInt (-a.toInt)) (-a.toInt) := by
  rw [Int64.ofInt_neg, Int64.ofInt_toInt]
  rfl

variable {a b}

/-- A quotient of words is the exact one, unless the words cannot be divided. -/
theorem toInt_div (h : undivided a b = false) : (a / b).toInt = a.toInt.tdiv b.toInt := by
  unfold undivided at h
  obtain ⟨-, hoverflow⟩ := Bool.or_eq_false_iff.1 h
  rcases Bool.and_eq_false_iff.1 hoverflow with ha | hb
  · exact Int64.toInt_div_of_ne_left a b (ne_of_beq_false ha)
  · exact Int64.toInt_div_of_ne_right a b (ne_of_beq_false hb)

theorem toInt_eq_zero : a.toInt = 0 ↔ a = 0 := by
  rw [← Int64.toInt_zero, Int64.toInt_inj]

end Number

/-- An integer that a word holds has the word. -/
theorem Value.ofInt_toInt (a : Int64) : ofInt a.toInt = .integer a := by
  rw [ofInt, if_pos (Number.fitsWord_toInt a), Int64.ofInt_toInt]

/-! ## Operators -/

namespace Formula

variable {a b : Int64} {op : Arithmetic}

/-- A checked operation comes to the exact result, in one way or the other. -/
theorem ofWord_exactly {n : Int} (h : intArithmetic op a.toInt b.toInt = .ok (.ofInt n)) :
    ofWord op a b (Number.exactly (.ofInt n) n) = .ok (.ofInt n) := by
  rw [Number.exactly_ofInt]
  by_cases fits : Number.fitsWord n = true
  · rw [if_pos fits, Value.ofInt, if_pos fits]
    rfl
  · rw [if_neg fits]
    exact h

/-- Words come to what integers of any length come to. -/
theorem wordArithmetic_eq (op : Arithmetic) (a b : Int64) :
    wordArithmetic op a b = intArithmetic op a.toInt b.toInt := by
  cases op with
  | add =>
    unfold wordArithmetic
    rw [Number.checkedAdd_eq]
    exact ofWord_exactly rfl
  | sub =>
    unfold wordArithmetic
    rw [Number.checkedSub_eq]
    exact ofWord_exactly rfl
  | mul =>
    unfold wordArithmetic
    rw [Number.checkedMul_eq]
    exact ofWord_exactly rfl
  | div =>
    by_cases zero : b = 0
    · exact (if_pos zero).trans (if_pos (Number.toInt_eq_zero.2 zero)).symm
    · unfold wordArithmetic
      rw [if_neg zero, Number.checkedRem, Number.checkedDiv]
      cases hdiv : Number.undivided a b with
      | true => rfl
      | false =>
        have hmod : (a % b).toInt = a.toInt.tmod b.toInt := Int64.toInt_mod a b
        show (if a % b = 0 then Except.ok (.integer (a / b)) else floatArithmetic .div _ _) =
          intArithmetic .div a.toInt b.toInt
        unfold intArithmetic
        rw [if_neg (mt Number.toInt_eq_zero.1 zero), ← hmod, ← Number.toInt_div hdiv,
          Value.ofInt_toInt]
        by_cases whole : a % b = 0
        · rw [if_pos whole, if_pos (Number.toInt_eq_zero.2 whole)]
        · rw [if_neg whole, if_neg (mt Number.toInt_eq_zero.1 whole)]
  | mod =>
    by_cases zero : b = 0
    · exact (if_pos zero).trans (if_pos (Number.toInt_eq_zero.2 zero)).symm
    · show (if b = 0 then .error divisionByZero else ofWord .mod a b (Number.checkedRem a b)) = _
      rw [if_neg zero, Number.checkedRem]
      cases hdiv : Number.undivided a b with
      | true => rfl
      | false =>
        show Except.ok (Value.integer (a % b)) =
          if b.toInt = 0 then .error divisionByZero else .ok (Value.ofInt (a.toInt.tmod b.toInt))
        rw [if_neg (mt Number.toInt_eq_zero.1 zero), ← Int64.toInt_mod, Value.ofInt_toInt]

/-- The operators do not depend on the tags of integers. -/
theorem arithmetic_of_int {v w : Value} {m n : Int} (hv : v.int? = some m) (hw : w.int? = some n) :
    arithmetic op v w = intArithmetic op m n := by
  cases v with
  | integer a =>
    cases hv
    cases w with
    | integer b =>
      cases hw
      exact wordArithmetic_eq op a b
    | big n =>
      cases hw
      rfl
    | _ => cases hw
  | big m =>
    cases hv
    cases w with
    | integer b =>
      cases hw
      rfl
    | big n =>
      cases hw
      rfl
    | _ => cases hw
  | _ => cases hv

/-- Where an operand is not an integer, the operators are those of doubles. -/
theorem arithmetic_of_not_int {v w : Value} (h : v.int? = none ∨ w.int? = none) :
    arithmetic op v w =
      match v.float?, w.float? with
      | some x, some y => floatArithmetic op x y
      | _, _ =>
        .error (.typeMismatch
          ("cannot apply '" ++ op.symbol ++ "' to " ++ v.typeName ++ " and " ++ w.typeName)) := by
  cases v <;> cases w <;> first | rfl | exact absurd h (by simp [Value.int?])

/-- The negative of an integer does not depend on its tag. -/
theorem negate_of_int {v : Value} {m : Int} (hv : v.int? = some m) :
    negate v = .ok (.ofInt (-m)) := by
  cases v with
  | integer a =>
    cases hv
    simp only [negate, Number.checkedNeg_eq, Number.exactly_ofInt]
    by_cases fits : Number.fitsWord (-a.toInt) = true
    · simp only [Value.ofInt, if_pos fits]
    · simp only [if_neg fits]
  | big n =>
    cases hv
    rfl
  | _ => cases hv

end Formula

/-! ## Integers and their tags -/

/-- A value that is an integer, with the tag of 64 bits exactly if they hold it. -/
structure Value.IsInt (v : Value) (n : Int) : Prop where
  exact : v.int? = some n
  tag : (∃ word, v = .integer word) ↔ -9223372036854775808 ≤ n ∧ n ≤ 9223372036854775807

theorem Value.isInt_ofInt (n : Int) : (ofInt n).IsInt n := by
  have hrange : Number.fitsWord n = true ↔
      -9223372036854775808 ≤ n ∧ n ≤ 9223372036854775807 := decide_eq_true_iff
  by_cases fits : Number.fitsWord n = true
  · have hvalue : ofInt n = .integer (Int64.ofInt n) := if_pos fits
    refine ⟨?_, iff_of_true ⟨_, hvalue⟩ (hrange.1 fits)⟩
    rw [hvalue]
    exact congrArg some ((Number.toInt_ofInt_eq_iff n).2 fits)
  · have hvalue : ofInt n = .big n := if_neg fits
    refine ⟨?_, iff_of_false ?_ (mt hrange.2 fits)⟩
    · rw [hvalue]
      rfl
    · rintro ⟨word, hword⟩
      cases hvalue.symm.trans hword

/-- A run that comes to an integer at once. -/
def Run.GivesInt (x : Run Value) (n : Int) : Prop :=
  ∃ v : Value, x = pure v ∧ v.IsInt n

theorem Run.givesInt_ofExcept {x : Except Cause Value} {n : Int} (h : x = .ok (.ofInt n)) :
    (Run.ofExcept x).GivesInt n :=
  ⟨_, by rw [h]; rfl, Value.isInt_ofInt n⟩

/-! ## The laws -/

namespace Formula

/-- What the operators of arithmetic do with two values that are integers. -/
structure IntegerLaws (a b : Value) (m n : Int) : Prop where
  add : ∀ e : Engine, (e.applyBinary .add a b).GivesInt (m + n)
  sub : ∀ e : Engine, (e.applyBinary .sub a b).GivesInt (m - n)
  mul : ∀ e : Engine, (e.applyBinary .mul a b).GivesInt (m * n)
  /-- Nothing is divided by zero. -/
  zero : n = 0 → ∀ e : Engine,
    e.applyBinary .div a b = Run.fail (.arithmetic "division by zero") ∧
      e.applyBinary .mod a b = Run.fail (.arithmetic "division by zero")
  /-- The remainder is less than the divisor, and has the sign of the dividend. -/
  mod : n ≠ 0 → ∃ r : Int, n ∣ m - r ∧ |r| < |n| ∧ (0 ≤ m → 0 ≤ r) ∧ (m ≤ 0 → r ≤ 0) ∧
    ∀ e : Engine, (e.applyBinary .mod a b).GivesInt r
  /-- A quotient that is an integer is exact. -/
  quotient : n ≠ 0 → ∀ q : Int, m = n * q → ∀ e : Engine, (e.applyBinary .div a b).GivesInt q
  /-- Any other quotient is that of the nearest doubles, unless it is not finite. -/
  fraction : n ≠ 0 → ¬ n ∣ m → ∀ e : Engine, e.applyBinary .div a b =
    if (Number.ofInt m / Number.ofInt n).isFinite then
      pure (.float (Number.ofInt m / Number.ofInt n))
    else Run.fail (.arithmetic "'/' produced a non-finite result")
  neg : (Run.ofExcept (negate a)).GivesInt (-m)

/-- The quotient of integers of which one does not divide the other. -/
theorem intArithmetic_fraction {m n : Int} (nonzero : n ≠ 0) (h : ¬ n ∣ m) :
    intArithmetic .div m n =
      if (Number.ofInt m / Number.ofInt n).isFinite then
        .ok (.float (Number.ofInt m / Number.ofInt n))
      else .error (.arithmetic "'/' produced a non-finite result") := by
  have hmod : ¬ Int.tmod m n = 0 := mt Int.dvd_of_tmod_eq_zero h
  have hzero : ¬ ((Arithmetic.div = .div ∨ Arithmetic.div = .mod) ∧ Number.ofInt n == 0) := by
    rw [Number.ofInt_ne_zero nonzero]
    simp
  show (if n = 0 then .error divisionByZero
    else if Int.tmod m n = 0 then .ok (Value.ofInt (Int.tdiv m n))
    else floatArithmetic .div (Number.ofInt m) (Number.ofInt n)) = _
  rw [if_neg nonzero, if_neg hmod]
  unfold floatArithmetic
  rw [if_neg hzero]
  rfl

/-- A remainder as the operators have it. -/
theorem tmod_laws (m : Int) {n : Int} (nonzero : n ≠ 0) :
    n ∣ m - Int.tmod m n ∧ |Int.tmod m n| < |n| ∧ (0 ≤ m → 0 ≤ Int.tmod m n) ∧
      (m ≤ 0 → Int.tmod m n ≤ 0) := by
  refine ⟨Int.dvd_self_sub_tmod, ?_, fun h => Int.tmod_nonneg n h, fun h => ?_⟩
  · rw [Int.abs_eq_natAbs, Int.abs_eq_natAbs, Int.natAbs_tmod]
    exact Int.ofNat_lt.2 (Nat.mod_lt _ (Int.natAbs_pos.2 nonzero))
  · have hneg := Int.tmod_nonneg n (Int.neg_nonneg_of_nonpos h)
    rw [Int.neg_tmod] at hneg
    omega

variable {a b : Value} {m n : Int}

/-- Adding integers is arithmetic, and no concatenation. -/
theorem applyBinary_add (ha : a.int? = some m) (hb : b.int? = some n) (e : Engine) :
    e.applyBinary .add a b = Run.ofExcept (arithmetic .add a b) := by
  cases a with
  | integer _ | big _ =>
    cases b with
    | integer _ | big _ => rfl
    | _ => cases hb
  | _ => cases ha

theorem integers_are_exact (ha : a.int? = some m) (hb : b.int? = some n) :
    IntegerLaws a b m n := by
  have hop (op : Arithmetic) : arithmetic op a b = intArithmetic op m n := arithmetic_of_int ha hb
  constructor
  case add =>
    intro e
    rw [applyBinary_add ha hb]
    exact Run.givesInt_ofExcept (hop .add)
  case sub => exact fun _ => Run.givesInt_ofExcept (hop .sub)
  case mul => exact fun _ => Run.givesInt_ofExcept (hop .mul)
  case zero =>
    rintro rfl e
    exact ⟨congrArg Run.ofExcept (hop .div), congrArg Run.ofExcept (hop .mod)⟩
  case mod =>
    intro nonzero
    obtain ⟨hdvd, hlt, hnonneg, hnonpos⟩ := tmod_laws m nonzero
    refine ⟨Int.tmod m n, hdvd, hlt, hnonneg, hnonpos, fun _ => Run.givesInt_ofExcept ?_⟩
    exact (hop .mod).trans (if_neg nonzero)
  case quotient =>
    rintro nonzero q rfl e
    refine Run.givesInt_ofExcept ((hop .div).trans ((if_neg nonzero).trans ?_))
    rw [Int.mul_tmod_right, if_pos rfl, Int.mul_tdiv_cancel_left _ nonzero]
  case fraction =>
    intro nonzero h e
    show Run.ofExcept (arithmetic .div a b) = _
    rw [hop, intArithmetic_fraction nonzero h]
    split <;> rfl
  case neg => exact Run.givesInt_ofExcept (negate_of_int ha)

/-- The least integer of 64 bits and minus one with the tag of longer integers. -/
theorem least_word_is_exact : (Value.integer Int64.minValue).int? = some (-9223372036854775808) ∧
    (Value.big (-1)).int? = some (-1) ∧
    IntegerLaws (.integer Int64.minValue) (.big (-1)) (-9223372036854775808) (-1) :=
  ⟨by decide, rfl, integers_are_exact (by decide) rfl⟩

/-- A division can fail although the divisor is not zero. -/
theorem division_fails_without_zero :
    ¬ ∀ (e : Engine) (a b : Value) (m n : Int), a.int? = some m → b.int? = some n →
      ((∃ what, e.applyBinary .div a b = Run.fail (.arithmetic what)) ↔ n = 0) := by
  intro h
  have hlong (m : Int) : (Value.big m).int? = some m := rfl
  have hthree : (Value.integer 3).int? = some 3 := by decide
  have hinfinite : (Number.ofInt ((10 ^ 103) ^ 3) / Number.ofInt 3).isFinite = false := by
    decide +kernel
  have hdiv : arithmetic .div (.big ((10 ^ 103) ^ 3)) (.integer 3) =
      .error (.arithmetic "'/' produced a non-finite result") := by
    rw [arithmetic_of_int (hlong _) hthree,
      intArithmetic_fraction (by decide) (by decide), hinfinite]
    rfl
  have hfails {m : Int} {c : Cause} (hm : arithmetic .div (.big m) (.integer 3) = .error c) :
      (Engine.ofFuel 0).applyBinary .div (.big m) (.integer 3) = Run.fail c :=
    congrArg Run.ofExcept hm
  have hzero := (h (.ofFuel 0) _ _ _ _ (hlong _) hthree).1 ⟨_, hfails hdiv⟩
  exact absurd hzero (by decide)

end Formula
end Workbook
