import Formula.Proofs.Decimal.Exact

/-! # Rounding looks at the value

A number may be written with more or with fewer zeros. Rounding to a context gives numbers of one value for
all of them, or refuses them all.
-/
namespace Formula

theorem digitCount_mul_tenTo {n : Nat} (hn : n ≠ 0) (t : Nat) :
    digitCount (n * tenTo t) = digitCount n + t := by
  have hcount := digitCount_pos n
  have hlow : tenTo (digitCount n - 1 + t) ≤ n * tenTo t := by
    rw [tenTo_add]
    exact Nat.mul_le_mul_right _ (tenTo_digitCount_le (Nat.pos_of_ne_zero hn))
  have hhigh : n * tenTo t < tenTo (digitCount n - 1 + t + 1) := by
    have hplaces : digitCount n - 1 + t + 1 = digitCount n + t := by omega
    rw [hplaces, tenTo_add]
    exact Nat.mul_lt_mul_of_pos_right (lt_tenTo_digitCount n) (tenTo_pos t)
  rw [digitCount_eq hlow hhigh]
  omega

namespace Rounding

variable {n k : Nat}

/-- Which way a quotient is rounded does not depend on the unit it is measured in. -/
theorem divide_mul (mode : Rounding) (negative : Bool) (n k : Nat) {unit : Nat} (hunit : 0 < unit) :
    mode.divide negative (n * unit) (k * unit) = mode.divide negative n k := by
  have haway (quotient remainder : Nat) :
      mode.goesAway negative quotient (remainder * unit) (k * unit) =
        mode.goesAway negative quotient remainder k := by
    have hdouble : 2 * (remainder * unit) = 2 * remainder * unit := (Nat.mul_assoc _ _ _).symm
    have hle : k * unit ≤ 2 * remainder * unit ↔ k ≤ 2 * remainder := Nat.mul_le_mul_right_iff hunit
    have hlt : k * unit < 2 * remainder * unit ↔ k < 2 * remainder := Nat.mul_lt_mul_right hunit
    have heq : 2 * remainder * unit = k * unit ↔ 2 * remainder = k := Nat.mul_left_inj hunit.ne'
    cases mode with
    | halfUp => simp only [goesAway, hdouble, hle]
    | halfDown => simp only [goesAway, hdouble, hlt]
    | halfEven => simp only [goesAway, hdouble, hlt, Bool.beq_eq_decide_eq, heq]
    | _ => rfl
  have hremainder : n % k * unit ≠ 0 ↔ n % k ≠ 0 := by
    rw [ne_eq, Nat.mul_eq_zero, or_iff_left hunit.ne']
  rw [divide, divide, Nat.mul_div_mul_right _ _ hunit, Nat.mul_mod_mul_right]
  simp only [haway, hremainder]

/-- Zeros that are dropped with the rest make no difference. -/
theorem dropDigits_shift (mode : Rounding) (negative : Bool) (hn : n ≠ 0) (k t : Nat) :
    mode.dropDigits negative (n * tenTo t) (k + t) = mode.dropDigits negative n k := by
  have hplaces : min (k + t) (digitCount (n * tenTo t) + 1) = min k (digitCount n + 1) + t := by
    rw [digitCount_mul_tenTo hn]
    omega
  rw [dropDigits, hplaces, tenTo_add, divide_mul _ _ _ _ (tenTo_pos t), dropDigits]

/-- Where there are more zeros than are dropped, nothing is rounded. -/
theorem dropDigits_zeros (mode : Rounding) (negative : Bool) (hn : n ≠ 0) {k t : Nat} (h : k ≤ t) :
    mode.dropDigits negative (n * tenTo t) k = n * tenTo (t - k) := by
  have hsplit : n * tenTo t = n * tenTo (t - k) * tenTo k := by
    rw [Nat.mul_assoc, ← tenTo_add, Nat.sub_add_cancel h]
  have hnonzero : n * tenTo (t - k) ≠ 0 := Nat.mul_ne_zero hn (tenTo_pos _).ne'
  rw [hsplit, dropDigits_mul_tenTo _ _ hnonzero]

end Rounding

namespace Context

variable {c : Context} {n : Nat}

theorem value_toLastPlace_shift (hn : n ≠ 0) (negative : Bool) (t : Nat) (exponent : Int) :
    (c.toLastPlace ⟨negative, n * tenTo t, exponent⟩).value =
      (c.toLastPlace ⟨negative, n, exponent + t⟩).value := by
  unfold toLastPlace
  dsimp only
  by_cases hlow : c.lastPlace ≤ exponent
  · rw [if_pos hlow, if_pos (by omega)]
    exact Decimal.value_shift negative n t exponent
  by_cases hhigh : c.lastPlace ≤ exponent + t
  · have hzeros : (c.lastPlace - exponent).toNat ≤ t := by omega
    rw [if_neg hlow, if_pos hhigh, Rounding.dropDigits_zeros _ _ hn hzeros, Decimal.value_shift]
    congr 2
    omega
  · have hdropped : (c.lastPlace - exponent).toNat = (c.lastPlace - (exponent + t)).toNat + t := by omega
    rw [if_neg hlow, if_neg hhigh, hdropped, Rounding.dropDigits_shift _ _ hn]

theorem value_toPrecision_shift (hn : n ≠ 0) (negative : Bool) (t : Nat) (exponent : Int) :
    (c.toPrecision ⟨negative, n * tenTo t, exponent⟩).map Decimal.value =
      (c.toPrecision ⟨negative, n, exponent + t⟩).map Decimal.value := by
  have hcount : digitCount (n * tenTo t) = digitCount n + t := digitCount_mul_tenTo hn t
  unfold toPrecision Decimal.digits
  dsimp only
  rw [hcount]
  by_cases hlong : digitCount n + t ≤ c.precision
  · rw [if_pos hlong, if_pos (by omega)]
    exact congrArg Except.ok (Decimal.value_shift negative n t exponent)
  by_cases hshort : digitCount n ≤ c.precision
  · -- Only zeros are dropped.
    have hzeros : digitCount n + t - c.precision ≤ t := by omega
    have hkept : digitCount (n * tenTo (t - (digitCount n + t - c.precision))) ≤ c.precision := by
      rw [digitCount_mul_tenTo hn]
      omega
    rw [if_neg hlong, if_pos hshort, Rounding.dropDigits_zeros _ _ hn hzeros, if_pos hkept]
    refine congrArg Except.ok ?_
    rw [Decimal.value_shift]
    congr 2
    omega
  · have hdropped : digitCount n + t - c.precision = digitCount n - c.precision + t := by omega
    have hplace : exponent + ((digitCount n - c.precision + t : Nat) : Int) =
        exponent + t + (digitCount n - c.precision : Nat) := by
      push_cast
      ring
    rw [if_neg hlong, if_neg hshort, hdropped, Rounding.dropDigits_shift _ _ hn, hplace]

/-- Zeros at the end of the coefficient do not matter to rounding. -/
theorem value_round_shift (negative : Bool) (n t : Nat) (exponent : Int) :
    (c.round ⟨negative, n * tenTo t, exponent⟩).map Decimal.value =
      (c.round ⟨negative, n, exponent + t⟩).map Decimal.value := by
  unfold round
  by_cases hn : n = 0
  · subst hn
    simp [Decimal.isZero, Except.map, Decimal.value]
  have hnonzero (a : Nat) (ha : a ≠ 0) (place : Int) : ¬ Decimal.isZero ⟨negative, a, place⟩ = true := by
    simpa [Decimal.isZero] using ha
  have hadjusted : Decimal.adjusted ⟨negative, n * tenTo t, exponent⟩ =
      Decimal.adjusted ⟨negative, n, exponent + t⟩ := by
    simp only [Decimal.adjusted, digitCount_mul_tenTo hn]
    push_cast
    ring
  rw [if_neg (hnonzero _ (Nat.mul_ne_zero hn (tenTo_pos t).ne') _), if_neg (hnonzero n hn _), hadjusted]
  split
  · rfl
  split
  · exact congrArg Except.ok (value_toLastPlace_shift hn negative t exponent)
  · exact value_toPrecision_shift hn negative t exponent

/-- Numbers of one value and one sign are rounded to one value. -/
theorem value_round_congr {a b : Decimal} (hsign : a.negative = b.negative) (h : |a.value| = |b.value|) :
    (c.round a).map Decimal.value = (c.round b).map Decimal.value := by
  rw [Decimal.abs_value, Decimal.abs_value] at h
  obtain ⟨negative, m, low⟩ := a
  obtain ⟨_, n, high⟩ := b
  obtain rfl := hsign
  dsimp only at h
  rcases Int.le_total low high with hle | hle
  · rw [eq_mul_tenTo hle h, value_round_shift]
    congr 3
    omega
  · rw [eq_mul_tenTo hle h.symm, value_round_shift]
    congr 3
    omega

end Context

end Formula
