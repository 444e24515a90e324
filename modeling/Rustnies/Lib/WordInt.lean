import Mathlib.Algebra.Order.Group.Abs
import Mathlib.Algebra.Order.Ring.Int

/-! # Arithmetic of `Int64` against the integers

A wrapping operation is the operation on the integers as long as the exact value fits the
word. A computation is followed over the integers by one rule for each operation: what
the operands denote, and that the exact result fits.
-/

namespace WordInt

/-- A value that an `i64` holds. -/
def Fits (x : Int) : Prop := -2 ^ 63 ≤ x ∧ x < 2 ^ 63

instance (x : Int) : Decidable (Fits x) := inferInstanceAs (Decidable (_ ∧ _))

variable {a b : Int64} {x y : Int}

theorem bmod_of_fits (fits : Fits x) : x.bmod (2 ^ 64) = x := by
  obtain ⟨low, high⟩ := fits
  exact Int.bmod_eq_of_le_mul_two (by omega) (by omega)

theorem ofNat_eq {n : Nat} (fits : Fits n) : (Int64.ofNat n).toInt = n := by
  obtain ⟨-, high⟩ := fits
  exact Int64.toInt_ofNat_of_lt (by omega)

theorem add_eq (left : a.toInt = x) (right : b.toInt = y) (fits : Fits (x + y)) :
    (a + b).toInt = x + y := by
  rw [Int64.toInt_add, left, right, bmod_of_fits fits]

theorem sub_eq (left : a.toInt = x) (right : b.toInt = y) (fits : Fits (x - y)) :
    (a - b).toInt = x - y := by
  rw [Int64.toInt_sub, left, right, bmod_of_fits fits]

theorem mul_eq (left : a.toInt = x) (right : b.toInt = y) (fits : Fits (x * y)) :
    (a * b).toInt = x * y := by
  rw [Int64.toInt_mul, left, right, bmod_of_fits fits]

theorem div_eq (left : a.toInt = x) (right : b.toInt = y) (divisor : y ≠ -1) :
    (a / b).toInt = x.tdiv y := by
  have other : b ≠ -1 := by
    rintro rfl
    exact divisor right.symm
  rw [Int64.toInt_div_of_ne_right a b other, left, right]

theorem abs_eq (operand : a.toInt = x) (fits : Fits |x|) : a.abs.toInt = |x| := by
  have inside : a.toBitVec ≠ BitVec.intMin 64 := by
    intro least
    have value : a.toInt = (BitVec.intMin 64).toInt := congrArg BitVec.toInt least
    rw [operand] at value
    rw [value] at fits
    exact absurd fits (by decide)
  have same : a.abs.toInt = a.toBitVec.abs.toInt := rfl
  rw [same, BitVec.toInt_abs_eq_natAbs_of_ne_intMin inside, ← operand, Int.abs_eq_natAbs]
  rfl

theorem max_eq (left : a.toInt = x) (right : b.toInt = y) : (max a b).toInt = max x y := by
  have chosen : max a b = if a ≤ b then b else a := rfl
  rw [chosen]
  split
  · rename_i le
    rw [Int64.le_iff_toInt_le, left, right] at le
    rw [right, max_eq_right le]
  · rename_i lt
    rw [Int64.le_iff_toInt_le, left, right] at lt
    rw [left, max_eq_left (Int.le_of_not_le lt)]

theorem toUInt64_eq (operand : a.toInt = x) (positive : 0 ≤ x) :
    (a.toUInt64.toNat : Int) = x := by
  have sign : 0 ≤ a := Int64.le_iff_toInt_le.mpr (by simpa [operand] using positive)
  rw [Int64.toNat_toUInt64_of_le sign, Int64.toNatClampNeg, operand, Int.toNat_of_nonneg positive]

end WordInt
