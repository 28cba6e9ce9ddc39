/-
The integers that a machine word holds, those that a double holds exactly, the operations
on words that have no result where a word does not hold it, and the powers of integers.
-/

namespace Workbook
namespace Number

/-- The integers of 64 bits with a sign are those between these two. -/
def leastWord : Int := -0x8000000000000000

def greatestWord : Int := 0x7fffffffffffffff

/-- Whether 64 bits with a sign hold an integer. -/
def fitsWord (n : Int) : Bool :=
  decide (leastWord ≤ n ∧ n ≤ greatestWord)

/-- Up to this magnitude every integer is a double. -/
def exactBound : Nat := 0x20000000000000

/-- An integer survives the way into a word and back exactly if the word holds it. -/
theorem toInt_ofInt_eq_iff (n : Int) : (Int64.ofInt n).toInt = n ↔ fitsWord n = true := by
  have h := Int64.le_toInt (Int64.ofInt n)
  have h' := Int64.toInt_lt (Int64.ofInt n)
  simp only [fitsWord, decide_eq_true_eq]
  simp only [leastWord, greatestWord]
  constructor
  · omega
  · intro e
    exact Int64.toInt_ofInt_of_le (by omega) (by omega)

/-! ## Operations on words -/

/-- The word that an operation comes to, if it is the exact result. -/
def exactly (word : Int64) (n : Int) : Option Int64 :=
  if word.toInt = n then some word else none

def checkedAdd (a b : Int64) : Option Int64 :=
  exactly (a + b) (a.toInt + b.toInt)

def checkedSub (a b : Int64) : Option Int64 :=
  exactly (a - b) (a.toInt - b.toInt)

def checkedMul (a b : Int64) : Option Int64 :=
  exactly (a * b) (a.toInt * b.toInt)

def checkedNeg (a : Int64) : Option Int64 :=
  exactly (-a) (-a.toInt)

/-- Whether a word cannot be divided by another: by zero, and where the quotient would not be a
word. -/
def undivided (a b : Int64) : Bool :=
  b == 0 || a == Int64.minValue && b == -1

def checkedDiv (a b : Int64) : Option Int64 :=
  if undivided a b then none else some (a / b)

def checkedRem (a b : Int64) : Option Int64 :=
  if undivided a b then none else some (a % b)

/-! ## Powers -/

/-- A power of an integer, through the power of its magnitude. -/
def power (b : Int) (n : Nat) : Int :=
  let m : Int := Nat.pow b.natAbs n
  if b < 0 ∧ n % 2 = 1 then -m else m

/-- The power is repeated multiplication. -/
theorem power_succ (b : Int) (n : Nat) : power b (n + 1) = power b n * b := by
  have hp : Nat.pow b.natAbs (n + 1) = Nat.pow b.natAbs n * b.natAbs := rfl
  simp only [power, hp, Int.natCast_mul]
  by_cases h : b < 0
  · have hb : (b.natAbs : Int) = -b := by omega
    rcases Nat.mod_two_eq_zero_or_one n with hn | hn
    · have hs : (n + 1) % 2 = 1 := by omega
      rw [if_pos ⟨h, hs⟩, if_neg (by omega), hb, Int.mul_neg, Int.neg_neg]
    · have hs : (n + 1) % 2 = 0 := by omega
      rw [if_neg (by omega), if_pos ⟨h, hn⟩, hb, Int.mul_neg, Int.neg_mul]
  · have hb : (b.natAbs : Int) = b := by omega
    rw [if_neg (fun k => h k.1), if_neg (fun k => h k.1), hb]

end Number
end Workbook
