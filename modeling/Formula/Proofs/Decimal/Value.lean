import Formula.Decimal.Context
import Formula.Proofs.Decimal.Digits
import Mathlib.Algebra.Order.Field.Power
import Mathlib.Data.Rat.Cast.Order
import Mathlib.Tactic.Linarith
import Mathlib.Tactic.Positivity
import Mathlib.Tactic.Ring

/-! # The values of decimals

A decimal stands for a rational number. Its coefficient and its exponent are one way among many to write the
magnitude; the leading digit tells the power of ten below it.
-/
namespace Formula

theorem cast_tenTo (k : Nat) : ((tenTo k : ℕ) : ℚ) = 10 ^ k := by
  rw [tenTo]
  exact Nat.cast_pow 10 k

/-- Two ways to write a magnitude differ in zeros. -/
theorem eq_mul_tenTo {m k : ℕ} {low high : ℤ} (hle : low ≤ high) (h : (m : ℚ) * 10 ^ low = k * 10 ^ high) :
    m = k * tenTo (high - low).toNat := by
  have hten : (10 : ℚ) ^ low ≠ 0 := zpow_ne_zero low (by norm_num)
  have hshift : (10 : ℚ) ^ high = 10 ^ (high - low).toNat * 10 ^ low := by
    rw [← zpow_natCast, Int.toNat_of_nonneg (by omega), ← zpow_add₀ (by norm_num), sub_add_cancel]
  rw [hshift, ← mul_assoc] at h
  have hcancel : (m : ℚ) = k * 10 ^ (high - low).toNat := mul_right_cancel₀ hten h
  rw [← cast_tenTo] at hcancel
  exact_mod_cast hcancel

namespace Decimal

variable {d a b : Decimal}

def value (d : Decimal) : ℚ := (if d.negative then -1 else 1) * (d.coefficient * 10 ^ d.exponent)

theorem isZero_iff : d.isZero = true ↔ d.coefficient = 0 := by simp [isZero]

theorem isZero_eq_false_iff : d.isZero = false ↔ d.coefficient ≠ 0 := by simp [isZero]

theorem abs_value (d : Decimal) : |d.value| = d.coefficient * 10 ^ d.exponent := by
  have hpositive : (0 : ℚ) ≤ d.coefficient * 10 ^ d.exponent := by positivity
  rw [value, abs_mul, abs_of_nonneg hpositive]
  split <;> simp

theorem value_eq_zero_iff : d.value = 0 ↔ d.coefficient = 0 := by
  have hten : (10 : ℚ) ^ d.exponent ≠ 0 := zpow_ne_zero _ (by norm_num)
  rw [← abs_eq_zero, abs_value, mul_eq_zero_iff_right hten, Nat.cast_eq_zero]

theorem value_of_isZero (h : d.isZero = true) : d.value = 0 := value_eq_zero_iff.mpr (isZero_iff.mp h)

/-- Sign and magnitude make the value. -/
theorem value_eq_of_abs (hsign : a.negative = b.negative) (h : |a.value| = |b.value|) :
    a.value = b.value := by
  rw [abs_value, abs_value] at h
  rw [value, value, hsign, h]

theorem value_magnitude (d : Decimal) : d.magnitude.value = |d.value| := by
  rw [abs_value, value, magnitude]
  simp

theorem value_nonpos (h : d.negative = true) : d.value ≤ 0 := by
  rw [value, h, if_pos rfl]
  have hpositive : (0 : ℚ) ≤ d.coefficient * 10 ^ d.exponent := by positivity
  linarith

theorem value_ofNat (n : Nat) : (ofNat n).value = n := by simp [value, ofNat]

/-- Only zero is a whole number with a sign. -/
theorem isZero_of_negative {n : ℕ} (hvalue : d.value = n) (hsign : d.negative = true) :
    d.isZero = true := by
  have hnone : d.value = 0 := le_antisymm (value_nonpos hsign) (hvalue ▸ Nat.cast_nonneg n)
  exact isZero_iff.mpr (value_eq_zero_iff.mp hnone)

/-- Zeros behind the coefficient. -/
theorem value_shift (negative : Bool) (k t : Nat) (exponent : Int) :
    value ⟨negative, k * tenTo t, exponent⟩ = value ⟨negative, k, exponent + t⟩ := by
  rw [value, value, Nat.cast_mul, cast_tenTo, zpow_add₀ (by norm_num), zpow_natCast]
  ring

theorem value_product (a b : Decimal) :
    value ⟨a.negative ^^ b.negative, a.coefficient * b.coefficient, a.exponent + b.exponent⟩ =
      a.value * b.value := by
  rw [value, value, value, Nat.cast_mul, zpow_add₀ (by norm_num)]
  cases a.negative <;> cases b.negative <;> simp <;> ring

theorem coefficientAt_mul {low : Int} (h : low ≤ d.exponent) :
    (d.coefficientAt low : ℚ) * 10 ^ low = |d.value| := by
  rw [abs_value, coefficientAt, padded]
  split
  next hzero => simp [hzero]
  next =>
    have hshift : (10 : ℚ) ^ d.exponent = 10 ^ (d.exponent - low).toNat * 10 ^ low := by
      rw [← zpow_natCast, Int.toNat_of_nonneg (by omega), ← zpow_add₀ (by norm_num), sub_add_cancel]
    rw [Nat.cast_mul, cast_tenTo, hshift, mul_assoc]

theorem coefficientAt_one_mul {low : Int} (h : low ≤ 0) : (one.coefficientAt low : ℚ) * 10 ^ low = 1 := by
  have hone : |one.value| = 1 := by
    rw [one, value_ofNat]
    simp
  exact (coefficientAt_mul h).trans hone

theorem adjusted_one : one.adjusted = 0 := by decide

theorem tenTo_adjusted_le (h : d.coefficient ≠ 0) : (10 : ℚ) ^ d.adjusted ≤ |d.value| := by
  have hdigits := digitCount_pos d.coefficient
  have hleading : ((tenTo (digitCount d.coefficient - 1) : ℕ) : ℚ) ≤ d.coefficient :=
    Nat.cast_le.mpr (tenTo_digitCount_le (Nat.pos_of_ne_zero h))
  have hplace : d.adjusted = (digitCount d.coefficient - 1 : Nat) + d.exponent := by
    unfold adjusted
    omega
  rw [abs_value, hplace, zpow_add₀ (by norm_num), zpow_natCast, ← cast_tenTo]
  exact mul_le_mul_of_nonneg_right hleading (by positivity)

theorem abs_value_lt (d : Decimal) : |d.value| < 10 ^ (d.adjusted + 1) := by
  have hdigits : ((d.coefficient : ℕ) : ℚ) < (tenTo (digitCount d.coefficient) : ℕ) :=
    Nat.cast_lt.mpr (lt_tenTo_digitCount d.coefficient)
  have hplace : d.adjusted + 1 = (digitCount d.coefficient : Nat) + d.exponent := by
    unfold adjusted
    omega
  rw [abs_value, hplace, zpow_add₀ (by norm_num), zpow_natCast, ← cast_tenTo]
  exact mul_lt_mul_of_pos_right hdigits (by positivity)

/-- What lies below a power of ten begins below its place. -/
theorem adjusted_lt {place : Int} (h : d.coefficient ≠ 0) (hless : |d.value| < 10 ^ place) :
    d.adjusted < place := by
  have hpower : (10 : ℚ) ^ d.adjusted < 10 ^ place := lt_of_le_of_lt (tenTo_adjusted_le h) hless
  exact (zpow_lt_zpow_iff_right₀ (by norm_num)).mp hpower

end Decimal

end Formula
