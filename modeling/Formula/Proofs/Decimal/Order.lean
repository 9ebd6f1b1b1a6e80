import Formula.Proofs.Decimal.Value
import Mathlib.Order.Compare

/-! # Decimals are ordered by their values

Comparing leading digits first, and coefficients only where these are in one place, compares the rational
numbers that the decimals stand for. So numbers of one value are equal, however many zeros they are written
with and whatever the sign of zero.
-/
namespace Formula

theorem compare_map {α β : Type} [LinearOrder α] [LinearOrder β] {f : α → β} (hf : StrictMono f) (a b : α) :
    Ord.compare (f a) (f b) = Ord.compare a b := by
  rcases lt_trichotomy a b with h | rfl | h
  · rw [compare_lt_iff_lt.mpr h, compare_lt_iff_lt.mpr (hf h)]
  · rw [compare_eq_iff_eq.mpr rfl, compare_eq_iff_eq.mpr rfl]
  · rw [compare_gt_iff_gt.mpr h, compare_gt_iff_gt.mpr (hf h)]

/-- Of two negative numbers the one of greater magnitude is less. -/
theorem compare_neg_neg (a b : ℚ) : Ord.compare (-b) (-a) = Ord.compare a b := by
  rcases lt_trichotomy a b with h | rfl | h
  · rw [compare_lt_iff_lt.mpr h, compare_lt_iff_lt.mpr (neg_lt_neg h)]
  · rw [compare_eq_iff_eq.mpr rfl, compare_eq_iff_eq.mpr rfl]
  · rw [compare_gt_iff_gt.mpr h, compare_gt_iff_gt.mpr (neg_lt_neg h)]

namespace Decimal

variable {a b : Decimal}

/-- Aligned coefficients are magnitudes in one unit. -/
theorem compare_coefficientAt {low : Int} (ha : low ≤ a.exponent) (hb : low ≤ b.exponent) :
    Ord.compare (a.coefficientAt low) (b.coefficientAt low) = Ord.compare |a.value| |b.value| := by
  have hunit : (0 : ℚ) < 10 ^ low := by positivity
  have hscaled : StrictMono fun coefficient : ℕ => (coefficient : ℚ) * 10 ^ low :=
    Nat.strictMono_cast.mul_const hunit
  rw [← coefficientAt_mul ha, ← coefficientAt_mul hb]
  exact (compare_map hscaled _ _).symm

/-- A leading digit in a lower place makes a lesser magnitude. -/
theorem abs_value_lt_of_adjusted (hb : b.coefficient ≠ 0) (h : a.adjusted < b.adjusted) :
    |a.value| < |b.value| :=
  calc |a.value| < 10 ^ (a.adjusted + 1) := a.abs_value_lt
    _ ≤ 10 ^ b.adjusted := zpow_le_zpow_right₀ (by norm_num) (by omega)
    _ ≤ |b.value| := tenTo_adjusted_le hb

theorem compareMagnitude_eq (ha : a.coefficient ≠ 0) (hb : b.coefficient ≠ 0) :
    a.compareMagnitude b = Ord.compare |a.value| |b.value| := by
  unfold compareMagnitude
  cases hplace : Ord.compare a.adjusted b.adjusted with
  | lt =>
    exact (compare_lt_iff_lt.mpr (abs_value_lt_of_adjusted hb (compare_lt_iff_lt.mp hplace))).symm
  | eq => exact compare_coefficientAt (Int.min_le_left _ _) (Int.min_le_right _ _)
  | gt =>
    exact (compare_gt_iff_gt.mpr (abs_value_lt_of_adjusted ha (compare_gt_iff_gt.mp hplace))).symm

theorem value_pos (hzero : a.isZero = false) (hsign : a.negative = false) : 0 < a.value := by
  have hcoefficient : (0 : ℚ) < a.coefficient :=
    Nat.cast_pos.mpr (Nat.pos_of_ne_zero (isZero_eq_false_iff.mp hzero))
  rw [value, hsign]
  simpa using mul_pos hcoefficient (by positivity)

theorem value_neg (hzero : a.isZero = false) (hsign : a.negative = true) : a.value < 0 :=
  lt_of_le_of_ne (value_nonpos hsign) fun hvalue =>
    isZero_eq_false_iff.mp hzero (value_eq_zero_iff.mp hvalue)

/-- The order of decimals is that of their values. -/
theorem compare_eq (a b : Decimal) : a.compare b = Ord.compare a.value b.value := by
  unfold compare
  cases ha : a.isZero with
  | true =>
    rw [value_of_isZero ha]
    cases hb : b.isZero with
    | true => rw [value_of_isZero hb, compare_eq_iff_eq.mpr rfl]; rfl
    | false =>
      cases hsign : b.negative with
      | true => exact (compare_gt_iff_gt.mpr (value_neg hb hsign)).symm
      | false => exact (compare_lt_iff_lt.mpr (value_pos hb hsign)).symm
  | false =>
    cases hb : b.isZero with
    | true =>
      rw [value_of_isZero hb]
      cases hsign : a.negative with
      | true => exact (compare_lt_iff_lt.mpr (value_neg ha hsign)).symm
      | false => exact (compare_gt_iff_gt.mpr (value_pos ha hsign)).symm
    | false =>
      have hnonzero := isZero_eq_false_iff.mp ha
      have hother := isZero_eq_false_iff.mp hb
      cases hsign : a.negative with
      | false =>
        have hpositive := value_pos ha hsign
        cases hsecond : b.negative with
        | false =>
          have hmagnitude := compareMagnitude_eq hnonzero hother
          rwa [abs_of_pos hpositive, abs_of_pos (value_pos hb hsecond)] at hmagnitude
        | true => exact (compare_gt_iff_gt.mpr ((value_neg hb hsecond).trans hpositive)).symm
      | true =>
        have hnegative := value_neg ha hsign
        cases hsecond : b.negative with
        | false => exact (compare_lt_iff_lt.mpr (hnegative.trans (value_pos hb hsecond))).symm
        | true =>
          have hmagnitude := compareMagnitude_eq hother hnonzero
          rw [abs_of_neg hnegative, abs_of_neg (value_neg hb hsecond)] at hmagnitude
          exact hmagnitude.trans (compare_neg_neg _ _)

instance : Std.TransCmp compare where
  eq_swap {a b} := by
    rw [compare_eq, compare_eq]
    exact Std.OrientedOrd.eq_swap
  isLE_trans {a b c} hab hbc := by
    rw [compare_eq] at hab hbc ⊢
    exact Std.TransOrd.isLE_trans hab hbc

end Decimal

end Formula
