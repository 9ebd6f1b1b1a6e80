import Formula.Proofs.Decimal.Fit
import Formula.Proofs.Decimal.Spelling

/-! # Whole numbers in a context

A context that has the digits for a whole number takes it apart and puts it together without loss. Of a longer
one the leading digits are left, rounded.
-/
namespace Formula

namespace Context

variable {c : Context} {a d zero : Decimal} {n k : Nat}

/-- What is left of a whole number in the context: its leading digits, rounded. -/
def roundedWhole (c : Context) (n : Nat) : Nat :=
  c.rounding.dropDigits false n (digitCount n - c.precision) * tenTo (digitCount n - c.precision)

theorem roundedWhole_zero (c : Context) : c.roundedWhole 0 = 0 := by
  simp [roundedWhole, Rounding.dropDigits, Rounding.divide]

theorem roundedWhole_of_digits (hn : n ≠ 0) (h : digitCount n ≤ c.precision) : c.roundedWhole n = n := by
  have hdrop := c.rounding.dropDigits_mul_tenTo false hn 0
  have hone : tenTo 0 = 1 := rfl
  rw [hone, Nat.mul_one] at hdrop
  rw [roundedWhole, Nat.sub_eq_zero_of_le h, hdrop, hone, Nat.mul_one]

/-- A number whose digits beyond the precision are zeros is left as it is. -/
theorem roundedWhole_of_written (hk : digitCount k ≤ c.precision) (t : Nat) :
    c.roundedWhole (k * tenTo t) = k * tenTo t := by
  rcases eq_or_ne k 0 with rfl | hk0
  · rw [Nat.zero_mul, roundedWhole_zero]
  · have hzeros : digitCount (k * tenTo t) - c.precision ≤ t := by
      rw [digitCount_mul_tenTo hk0]
      omega
    rw [roundedWhole, Rounding.dropDigits_zeros _ _ hk0 hzeros, Nat.mul_assoc, ← tenTo_add,
      Nat.sub_add_cancel hzeros]

/-- Rounding does not go below a power of ten. -/
theorem tenTo_le_roundedWhole (hprecision : 0 < c.precision) (h : tenTo k ≤ n) :
    tenTo k ≤ c.roundedWhole n := by
  have hpositive : 0 < n := Nat.lt_of_lt_of_le (tenTo_pos k) h
  generalize ht : digitCount n - c.precision = t
  have hcount := digitCount_pos n
  have hquotient : n / tenTo t ≤ c.rounding.dropDigits false n t := by
    rw [Rounding.dropDigits, Nat.min_eq_left (by omega), Rounding.divide]
    split <;> omega
  have hleading : tenTo t ≤ n := by
    calc tenTo t ≤ tenTo (digitCount n - 1) := tenTo_le_tenTo (by omega)
      _ ≤ n := tenTo_digitCount_le hpositive
  rw [roundedWhole, ht]
  rcases Nat.le_total t k with hle | hle
  · have hshare : tenTo (k - t) ≤ n / tenTo t := by
      rw [Nat.le_div_iff_mul_le (tenTo_pos t), ← tenTo_add, Nat.sub_add_cancel hle]
      exact h
    calc tenTo k = tenTo (k - t) * tenTo t := by rw [← tenTo_add, Nat.sub_add_cancel hle]
      _ ≤ c.rounding.dropDigits false n t * tenTo t := Nat.mul_le_mul_right _ (hshare.trans hquotient)
  · have hone : 1 ≤ n / tenTo t := Nat.div_pos hleading (tenTo_pos t)
    calc tenTo k ≤ tenTo t := tenTo_le_tenTo hle
      _ ≤ c.rounding.dropDigits false n t * tenTo t :=
        Nat.le_mul_of_pos_left _ (Nat.lt_of_lt_of_le hone hquotient)

/-- A carry into a new digit leaves the value as it is. -/
theorem exists_toPrecision_whole (hprecision : 0 < c.precision) (hn : n ≠ 0)
    (hrange : c.roundedWhole n < tenTo 1000000) :
    ∃ r, c.toPrecision ⟨false, n, 0⟩ = .ok r ∧ r.value = c.roundedWhole n := by
  unfold toPrecision Decimal.digits
  dsimp only
  split
  next hshort =>
    refine ⟨_, rfl, ?_⟩
    rw [roundedWhole_of_digits hn hshort]
    exact Decimal.value_ofNat n
  next hlong =>
    have hbelow : n < tenTo (c.precision + (digitCount n - c.precision)) := by
      rw [Nat.add_sub_cancel' (Nat.le_of_not_le hlong)]
      exact lt_tenTo_digitCount n
    have hkept := c.rounding.dropDigits_le_tenTo false hbelow
    have hwhole : c.roundedWhole n = c.rounding.dropDigits false n (digitCount n - c.precision) *
      tenTo (digitCount n - c.precision) := rfl
    generalize c.rounding.dropDigits false n (digitCount n - c.precision) = kept at hkept hwhole ⊢
    have hplaces (k t : Nat) : Decimal.value ⟨false, k, 0 + (t : Int)⟩ = ((k * tenTo t : ℕ) : ℚ) := by
      rw [← Decimal.value_shift]
      exact Decimal.value_ofNat _
    split
    next => exact ⟨_, rfl, by rw [hplaces, hwhole]⟩
    next hcarry =>
      have hfull : kept = tenTo (c.precision - 1) * 10 := by
        rw [digitCount_le_iff hprecision] at hcarry
        rw [← tenTo_succ, Nat.sub_add_cancel hprecision]
        omega
      have hvalue : Decimal.value ⟨false, kept / 10, 0 + ((digitCount n - c.precision : Nat) : Int) + 1⟩ =
          c.roundedWhole n := by
        have hnext := hplaces (kept / 10) (digitCount n - c.precision + 1)
        rw [Nat.cast_add, Nat.cast_one, ← Int.add_assoc] at hnext
        rw [hnext, hwhole, tenTo_succ, Nat.mul_comm (tenTo (digitCount n - c.precision)) 10, ← Nat.mul_assoc]
        congr 2
        omega
      have hbegins : Decimal.adjusted ⟨false, kept / 10, 0 + ((digitCount n - c.precision : Nat) : Int) + 1⟩ <
          maxExponent + 1 := by
        refine Decimal.adjusted_lt ?_ ?_
        · have hpositive := tenTo_pos (c.precision - 1)
          dsimp only
          omega
        · rw [hvalue, abs_of_nonneg (Nat.cast_nonneg _), maxExponent_succ, zpow_natCast, ← cast_tenTo]
          exact Nat.cast_lt.mpr hrange
      rw [inRange, if_neg (by omega)]
      exact ⟨_, rfl, hvalue⟩

theorem exists_round_ofNat (hprecision : 0 < c.precision) (hrange : c.roundedWhole n < tenTo 1000000) :
    ∃ r, c.round (.ofNat n) = .ok r ∧ r.value = c.roundedWhole n := by
  rcases eq_or_ne n 0 with rfl | hn
  · refine ⟨_, rfl, ?_⟩
    rw [roundedWhole_zero, Nat.cast_zero]
    exact Decimal.value_of_isZero rfl
  have hless : n < tenTo 1000000 := by
    by_contra hmore
    exact absurd (tenTo_le_roundedWhole hprecision (Nat.le_of_not_lt hmore)) (Nat.not_le.mpr hrange)
  have hcount := digitCount_pos n
  have hdigits : digitCount n ≤ 1000000 := (digitCount_le_iff (by decide)).mpr hless
  have hadjusted : (Decimal.ofNat n).adjusted = (digitCount n - 1 : Nat) := by
    simp only [Decimal.adjusted, Decimal.ofNat]
    omega
  have hzero : ¬ (Decimal.ofNat n).isZero = true := by simpa [Decimal.isZero, Decimal.ofNat] using hn
  have hmax : maxExponent = 999999 := rfl
  have hmin : minExponent = -999999 := rfl
  rw [round, if_neg hzero, hadjusted, if_neg (by omega), if_neg (by omega)]
  exact exists_toPrecision_whole hprecision hn hrange

/-- The magnitude of a whole number, in whatever way it is written. -/
theorem exists_abs_whole (hvalue : d.value = n) (hrange : standard.roundedWhole n < tenTo 1000000) :
    ∃ size, standard.abs d = .ok size ∧ size.value = standard.roundedWhole n := by
  have hround : standard.abs d = standard.round d.magnitude := by
    rw [Context.abs]
    cases hsign : d.negative with
    | true =>
      have hzero := Decimal.isZero_of_negative hvalue hsign
      simp [minus, hzero, standard]
    | false =>
      have hsame : d.magnitude = d := by rw [Decimal.magnitude, ← hsign]
      simp [plus, hsame]
  obtain ⟨r, hr, hwhole⟩ := exists_round_ofNat (by decide) hrange
  have hcongr : (standard.round d.magnitude).map Decimal.value =
      (standard.round (.ofNat n)).map Decimal.value := by
    refine value_round_congr rfl ?_
    rw [Decimal.value_magnitude, hvalue, Decimal.value_ofNat, abs_abs]
  rw [hr] at hcongr
  rw [hround]
  generalize standard.round d.magnitude = result at hcongr
  cases result with
  | ok size => exact ⟨size, rfl, (Except.ok.inj hcongr).trans hwhole⟩
  | error signal => cases hcongr

/-- At a place up to its last one and the unit's, a whole number is as many units. -/
theorem coefficientAt_whole (hvalue : a.value = n) : a.coefficientAt (min a.exponent 0) =
    n * Decimal.one.coefficientAt (min a.exponent 0) := by
  have hten : (10 : ℚ) ^ min a.exponent 0 ≠ 0 := zpow_ne_zero _ (by norm_num)
  have habs : |a.value| = n := by rw [hvalue, abs_of_nonneg (Nat.cast_nonneg n)]
  have hunit := Decimal.coefficientAt_one_mul (min_le_right a.exponent 0)
  have hproduct : (a.coefficientAt (min a.exponent 0) : ℚ) * 10 ^ min a.exponent 0 =
      (n * Decimal.one.coefficientAt (min a.exponent 0) : ℕ) * 10 ^ min a.exponent 0 := by
    rw [Decimal.coefficientAt_mul (min_le_left a.exponent 0), habs, Nat.cast_mul, mul_assoc, hunit, mul_one]
  exact_mod_cast mul_right_cancel₀ hten hproduct

theorem coefficientAt_one_pos (low : Int) : 0 < Decimal.one.coefficientAt low := by
  simp [Decimal.coefficientAt, Decimal.padded, Decimal.one, Decimal.ofNat, tenTo_pos]

/-- A whole number other than zero begins at the unit or before it. -/
theorem adjusted_whole (hvalue : a.value = n) (hzero : ¬ a.isZero = true) : 0 ≤ a.adjusted := by
  by_contra hless
  have hsmall : |a.value| < 1 := lt_of_lt_of_le a.abs_value_lt
    (zpow_le_one_of_nonpos₀ (by norm_num) (by omega))
  rw [hvalue, abs_of_nonneg (Nat.cast_nonneg n)] at hsmall
  have hempty : n = 0 := Nat.lt_one_iff.mp (by exact_mod_cast hsmall)
  rw [hempty, Nat.cast_zero, Decimal.value_eq_zero_iff, ← Decimal.isZero_iff] at hvalue
  exact hzero hvalue

/-- A whole number is taken apart at the unit if the context has the digits for it. -/
theorem remainder_one_whole (hvalue : a.value = n) (hzero : ¬ a.isZero = true) :
    c.remainder a .one =
      if (c.precision : Int) < a.adjusted ∨ c.precision < digitCount n then .error .undefined
      else c.round ⟨a.negative, 0, min a.exponent 0⟩ := by
  have hone : Decimal.one.isZero = false := rfl
  have hplace : Decimal.one.exponent = 0 := rfl
  have hlow := adjusted_whole hvalue hzero
  unfold remainder
  dsimp only
  rw [hone, if_neg Bool.false_ne_true, if_neg hzero, hplace, Decimal.adjusted_one, if_neg (by omega),
    Int.sub_zero, coefficientAt_whole hvalue, Nat.mul_div_cancel _ (coefficientAt_one_pos _),
    Nat.mul_mod_left]
  by_cases hfar : (c.precision : Int) < a.adjusted
  · rw [if_pos hfar, if_pos (.inl hfar)]
  · simp only [hfar, false_or, if_false]

/-- A whole number has no fraction. -/
theorem exists_remainder_one (hvalue : a.value = n) (hn : n < tenTo c.precision)
    (hprecision : 0 < c.precision) :
    ∃ fraction, c.remainder a .one = .ok fraction ∧ fraction.isZero = true := by
  by_cases hzero : a.isZero = true
  · rw [remainder, if_neg (by decide), if_pos hzero]
    exact ⟨_, rfl, rfl⟩
  · have hhigh : a.adjusted < c.precision := by
      refine Decimal.adjusted_lt (by rwa [Decimal.isZero_iff] at hzero) ?_
      rw [hvalue, abs_of_nonneg (Nat.cast_nonneg n), zpow_natCast, ← cast_tenTo]
      exact Nat.cast_lt.mpr hn
    have hdigits : digitCount n ≤ c.precision := (digitCount_le_iff hprecision).mpr hn
    rw [remainder_one_whole hvalue hzero, if_neg (by omega)]
    exact ⟨_, rfl, rfl⟩

/-- A whole number that is too long for the context is not taken apart there. -/
theorem remainder_one_of_long (hvalue : a.value = n) (hn : tenTo c.precision ≤ n)
    (hprecision : 0 < c.precision) : c.remainder a .one = .error .undefined := by
  have hpositive : 0 < n := Nat.lt_of_lt_of_le (tenTo_pos _) hn
  have hzero : ¬ a.isZero = true := by
    rw [Decimal.isZero_iff, ← Decimal.value_eq_zero_iff, hvalue, Nat.cast_eq_zero]
    exact hpositive.ne'
  have hlong : c.precision < digitCount n := by
    rw [← Nat.not_le, digitCount_le_iff hprecision]
    exact Nat.not_lt.mpr hn
  rw [remainder_one_whole hvalue hzero, if_pos (.inr hlong)]

/-- Adding a zero does not change the exact sum. -/
theorem value_exactSum_of_isZero (hzero : zero.isZero = true) : (c.exactSum a zero).value = a.value := by
  have hlow : min a.exponent zero.exponent ≤ a.exponent := min_le_left _ _
  have hnone : zero.coefficientAt (min a.exponent zero.exponent) = 0 := by
    simp [Decimal.coefficientAt, Decimal.padded, Decimal.isZero_iff.mp hzero]
  have hkept : Decimal.value ⟨a.negative, a.coefficientAt (min a.exponent zero.exponent),
      min a.exponent zero.exponent⟩ = a.value := by
    refine Decimal.value_eq_of_abs rfl ?_
    rw [Decimal.abs_value, Decimal.coefficientAt_mul hlow]
  unfold exactSum
  dsimp only
  rw [hnone, Nat.add_zero, Nat.sub_zero]
  split
  · exact hkept
  split
  next hcoefficient =>
    rw [← hkept, hcoefficient]
    exact (Decimal.value_of_isZero rfl).trans (Decimal.value_of_isZero rfl).symm
  split
  · exact hkept
  · omega

/-- What is held is what is left when zero is subtracted. -/
theorem Holds.exists_subtract_zero (h : c.Holds a.value) (hprecision : 0 < c.precision)
    (hzero : zero.isZero = true) : ∃ r, c.subtract a zero = .ok r ∧ r.value = a.value := by
  have hnegated : zero.negate.isZero = true := hzero
  have hround {b : Decimal} (hb : b.isZero = true) :
      ∃ r, c.round (c.exactSum a b) = .ok r ∧ r.value = a.value := by
    have hsum := value_exactSum_of_isZero (c := c) (a := a) hb
    obtain ⟨r, hr, hvalue⟩ := (hsum.symm ▸ h : c.Holds (c.exactSum a b).value).exists_round hprecision
    exact ⟨r, hr, hvalue.trans hsum⟩
  rw [subtract, add]
  split
  · -- Nothing stands in for a summand beside a zero.
    have hsame : c.standIn zero.negate a = a := by simp [standIn, hnegated]
    rw [hsame]
    exact hround hnegated
  · have hstand : (c.standIn a zero.negate).isZero = true := by
      unfold standIn
      dsimp only
      split
      · exact hnegated
      · simp [Decimal.isZero]
    exact hround hstand

/-- A whole number that the context has digits for is held. -/
theorem holds_natCast (hn : n < tenTo c.precision) (hrange : n < tenTo 1000000) : c.Holds n := by
  have habs : |(n : ℚ)| = n := abs_of_nonneg (Nat.cast_nonneg n)
  constructor
  · exact ⟨n, 0, by rw [habs, zpow_zero, mul_one], hn, (lastPlace_neg c).le⟩
  · rw [habs, maxExponent_succ, zpow_natCast, ← cast_tenTo]
    exact Nat.cast_lt.mpr hrange

end Context

namespace Decimal

variable {d : Decimal} {n : Nat}

theorem wholeMagnitude_of_value (hvalue : d.value = n) : d.wholeMagnitude = n := by
  have habs : (d.coefficient : ℚ) * 10 ^ d.exponent = n * 10 ^ (0 : ℤ) := by
    rw [← abs_value, hvalue, zpow_zero, mul_one, abs_of_nonneg (Nat.cast_nonneg n)]
  unfold wholeMagnitude
  split
  next hexponent =>
    have hcoefficient := eq_mul_tenTo hexponent habs.symm
    rw [hcoefficient, padded, Int.sub_zero]
    split
    next hzero => rw [hzero, Nat.zero_mul]
    next => rfl
  next hexponent =>
    have hcoefficient := eq_mul_tenTo (Int.le_of_not_le hexponent) habs
    rw [Int.zero_sub] at hcoefficient
    split
    next hdigits =>
      have hless : n * tenTo (-d.exponent).toNat < 1 * tenTo (-d.exponent).toNat := by
        rw [← hcoefficient, Nat.one_mul]
        exact Nat.lt_of_lt_of_le (lt_tenTo_digitCount _) (tenTo_le_tenTo hdigits)
      exact (Nat.lt_one_iff.mp (Nat.lt_of_mul_lt_mul_right hless)).symm
    next => rw [hcoefficient, Nat.mul_div_cancel _ (tenTo_pos _)]

/-- A whole number is its own whole part. -/
theorem truncate_of_value (hvalue : d.value = n) : d.truncate.toNat = n := by
  unfold truncate
  rw [wholeMagnitude_of_value hvalue]
  split
  next hsign =>
    have hzero := value_of_isZero (isZero_of_negative hvalue hsign)
    rw [hvalue, Nat.cast_eq_zero] at hzero
    rw [hzero]
    rfl
  next => exact Int.toNat_natCast n

/-- No fraction stands behind the point of a whole number, whatever its sign and its zeros. -/
theorem isIntegral_of_value {n : ℤ} (hvalue : d.value = n) : d.isIntegral = true := by
  rw [isIntegral, Bool.or_eq_true, Bool.or_eq_true, decide_eq_true_iff, or_assoc]
  by_cases hzero : d.isZero = true
  · exact .inl hzero
  by_cases hexponent : 0 ≤ d.exponent
  · exact .inr (.inl hexponent)
  have habs : (d.coefficient : ℚ) * 10 ^ d.exponent = n.natAbs * 10 ^ (0 : ℤ) := by
    rw [← abs_value, hvalue, zpow_zero, mul_one, Nat.cast_natAbs, Int.cast_abs]
  have hcoefficient := eq_mul_tenTo (Int.le_of_not_le hexponent) habs
  rw [Int.zero_sub] at hcoefficient
  have hsize : n.natAbs ≠ 0 := by
    intro hnone
    rw [hnone, Nat.zero_mul] at hcoefficient
    exact hzero (isZero_iff.mpr hcoefficient)
  have hcount := digitCount_pos n.natAbs
  refine .inr (.inr ?_)
  rw [digits, hcoefficient, digitCount_mul_tenTo hsize, Nat.mul_mod_left, Bool.and_eq_true, decide_eq_true_iff]
  exact ⟨by omega, rfl⟩

/-- Dropping the fraction of a whole number leaves the number. -/
theorem truncate_of_intValue {n : ℤ} (hvalue : d.value = n) : d.truncate = n := by
  have hsize : d.magnitude.value = n.natAbs := by
    rw [value_magnitude, hvalue, Nat.cast_natAbs, Int.cast_abs]
  have hwhole : d.magnitude.wholeMagnitude = d.wholeMagnitude := rfl
  rw [truncate, ← hwhole, wholeMagnitude_of_value hsize]
  split
  next hsign =>
    have hbelow : n ≤ 0 := by exact_mod_cast hvalue ▸ value_nonpos hsign
    omega
  next hsign =>
    have habove : (0 : ℚ) ≤ d.value := by
      rw [value, if_neg hsign, one_mul]
      positivity
    have hnonnegative : 0 ≤ n := by exact_mod_cast hvalue ▸ habove
    omega

theorem value_ofInt (n : ℤ) : (ofInt n).value = n := by
  rw [value, ofInt, zpow_zero, mul_one]
  rcases Int.lt_or_le n 0 with hbelow | habove
  · rw [decide_eq_true hbelow, if_pos rfl, Nat.cast_natAbs, abs_of_neg hbelow, Int.cast_neg]
    ring
  · rw [decide_eq_false (Int.not_lt.mpr habove), if_neg Bool.false_ne_true, Nat.cast_natAbs,
      abs_of_nonneg habove, one_mul]

end Decimal

end Formula
