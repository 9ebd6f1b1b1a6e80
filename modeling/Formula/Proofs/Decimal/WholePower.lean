import Formula.Proofs.Decimal.Exact
import Mathlib.Algebra.Order.Archimedean.Basic
import Mathlib.Algebra.Order.Floor.Semiring
import Mathlib.Algebra.Order.Ring.Pow
import Mathlib.Data.Nat.Factorization.Basic

/-! # Whole powers that can be written

A whole power that the context holds is computed exactly. The check that cuts off hopeless powers does not
stop it: if the bound on the logarithm puts a power out of range, then it is out of range.
-/
namespace Formula

/-- What exceeds one by little still grows: to the power with `m` zeros in about `9 m / d` steps. -/
theorem tenTo_le_one_add_pow {d : ℚ} (hd : 0 < d) {m n : ℕ} (h : (9 + d) * m ≤ n * d) :
    (10 : ℚ) ^ m ≤ (1 + d) ^ n := by
  have hsteps : 9 ≤ (⌈9 / d⌉₊ : ℚ) * d := (div_le_iff₀ hd).mp (Nat.le_ceil _)
  have hround : (⌈9 / d⌉₊ : ℚ) * d < 9 + d := by
    have hceil : (⌈9 / d⌉₊ : ℚ) < 9 / d + 1 := Nat.ceil_lt_add_one (by positivity)
    calc (⌈9 / d⌉₊ : ℚ) * d < (9 / d + 1) * d := mul_lt_mul_of_pos_right hceil hd
      _ = 9 + d := by rw [add_mul, div_mul_cancel₀ _ hd.ne', one_mul]
  have hten : (10 : ℚ) ≤ (1 + d) ^ ⌈9 / d⌉₊ := by
    have hbernoulli := one_add_mul_le_pow (show (-2 : ℚ) ≤ d by linarith) ⌈9 / d⌉₊
    linarith
  have hroom : ⌈9 / d⌉₊ * m ≤ n := by
    have hproduct : ((⌈9 / d⌉₊ * m : ℕ) : ℚ) * d ≤ n * d := by
      rw [Nat.cast_mul, mul_right_comm]
      exact le_trans (mul_le_mul_of_nonneg_right hround.le (Nat.cast_nonneg m)) h
    exact_mod_cast le_of_mul_le_mul_right hproduct hd
  calc (10 : ℚ) ^ m ≤ ((1 + d) ^ ⌈9 / d⌉₊) ^ m := pow_le_pow_left₀ (by norm_num) hten m
    _ = (1 + d) ^ (⌈9 / d⌉₊ * m) := (pow_mul _ _ _).symm
    _ ≤ (1 + d) ^ n := pow_le_pow_right₀ (by linarith) hroom

/-- The leading digits of two factors bound their product. -/
theorem tenTo_le_mul {m n : ℕ} (hm : 0 < m) (hn : 0 < n) :
    tenTo (digitCount m - 1 + (digitCount n - 1)) ≤ m * n := by
  rw [tenTo_add]
  exact Nat.mul_le_mul (tenTo_digitCount_le hm) (tenTo_digitCount_le hn)

namespace Decimal

variable {d : Decimal}

theorem exists_stripped (h : d.coefficient ≠ 0) :
    ∃ (k : ℕ) (place : ℤ), ¬ 10 ∣ k ∧ |d.value| = k * 10 ^ place := by
  obtain ⟨zeros, k, hk, hcoefficient⟩ := Nat.exists_eq_pow_mul_and_not_dvd h 10 (by decide)
  refine ⟨k, d.exponent + zeros, hk, ?_⟩
  rw [abs_value, hcoefficient, zpow_add₀ (by norm_num), zpow_natCast]
  push_cast
  ring

theorem value_eq_pow {r : Decimal} {n : ℕ} (hsign : r.negative = (d.negative && n % 2 == 1))
    (h : |r.value| = |d.value| ^ n) : r.value = d.value ^ n := by
  have hsplit (a : Decimal) : a.value = (if a.negative then -1 else 1) * |a.value| := by
    rw [abs_value, value]
  rw [hsplit r, hsplit d, h, mul_pow, hsign]
  congr 1
  cases d.negative with
  | false => simp
  | true =>
    rcases Nat.even_or_odd n with heven | hodd
    · simp [heven.neg_one_pow, Nat.even_iff.mp heven]
    · simp [hodd.neg_one_pow, Nat.odd_iff.mp hodd]

/-- How far the magnitude is from one. -/
theorem value_distance (d : Decimal) :
    value ⟨false, ((d.magnitude.coefficientAt (min d.magnitude.exponent 0) : Int) -
      one.coefficientAt (min d.magnitude.exponent 0)).natAbs, min d.magnitude.exponent 0⟩ =
        |(|d.value| - 1)| := by
  generalize hlow : min d.magnitude.exponent 0 = low
  have hleft : (d.magnitude.coefficientAt low : ℚ) * 10 ^ low = |d.value| := by
    rw [coefficientAt_mul (by omega), value_magnitude, abs_abs]
  have hright : (one.coefficientAt low : ℚ) * 10 ^ low = 1 := coefficientAt_one_mul (by omega)
  have hten : (0 : ℚ) ≤ 10 ^ low := by positivity
  rw [value, ← hleft]
  simp only [Bool.false_eq_true, if_false, one_mul]
  conv_rhs => rw [← hright]
  rw [Nat.cast_natAbs, ← sub_mul, abs_mul, abs_of_nonneg hten]
  push_cast
  rfl

theorem compare_magnitude_one (hd : d.coefficient ≠ 0) :
    d.magnitude.compare one = .eq ↔ |d.value| = 1 := by
  have hzero : d.magnitude.isZero = false := isZero_eq_false_iff.mpr hd
  have hcompare : d.magnitude.compare one = d.magnitude.compareMagnitude one := by
    rw [compare, hzero]
    rfl
  have haligned : d.magnitude.coefficientAt (min d.magnitude.exponent one.exponent) =
      one.coefficientAt (min d.magnitude.exponent one.exponent) ↔ |d.value| = 1 := by
    have hten : (10 : ℚ) ^ min d.magnitude.exponent one.exponent ≠ 0 := zpow_ne_zero _ (by norm_num)
    rw [← Nat.cast_inj (R := ℚ), ← mul_left_inj' hten, coefficientAt_mul (min_le_left _ _),
      coefficientAt_one_mul (min_le_right d.magnitude.exponent one.exponent), value_magnitude, abs_abs]
  rw [hcompare, compareMagnitude]
  constructor
  · intro h
    split at h
    next => exact haligned.mp (compare_eq_iff_eq.mp h)
    next hne => exact absurd h hne
  · intro h
    have hlow := tenTo_adjusted_le hd
    have hhigh := abs_value_lt d
    rw [h] at hlow hhigh
    have hnonpos : d.adjusted ≤ 0 := by
      by_contra hmore
      have hpower : (1 : ℚ) < 10 ^ d.adjusted := one_lt_zpow₀ (by norm_num) (Int.not_le.mp hmore)
      linarith
    have hnonneg : -1 < d.adjusted := by
      by_contra hless
      have hpower : (10 : ℚ) ^ (d.adjusted + 1) ≤ 1 := zpow_le_one_of_nonpos₀ (by norm_num) (by omega)
      linarith
    have hadjusted : d.magnitude.adjusted = one.adjusted := by
      rw [adjusted_one]
      change d.adjusted = 0
      omega
    rw [hadjusted, compare_eq_iff_eq.mpr rfl]
    exact compare_eq_iff_eq.mpr (haligned.mpr h)

end Decimal

namespace Context

variable {c : Context} {x : ℚ} {n : ℕ}

/-- The first bit is set. -/
theorem div_two_pow_log2 (hn : 0 < n) : n / 2 ^ n.log2 = 1 := by
  have hlow : 2 ^ n.log2 ≤ n := Nat.log2_self_le hn.ne'
  have hhigh : n < 2 ^ (n.log2 + 1) := Nat.lt_log2_self
  rw [Nat.div_eq_iff (Nat.two_pow_pos _)]
  rw [Nat.pow_succ] at hhigh
  omega

theorem digitCount_maxExponent : digitCount maxExponent.natAbs = 6 := by decide

theorem lastPlace_eq (c : Context) : c.lastPlace = -(c.lastPlace.natAbs : ℤ) := by
  have hnegative := lastPlace_neg c
  omega

theorem tenTo_le_steps {d : ℚ} {place : ℤ} (hd : (10 : ℚ) ^ place ≤ d) (hn : 0 < n) {m : ℕ}
    (h : (m : ℤ) ≤ place + (digitCount n - 1 : ℕ)) : (10 : ℚ) ^ m ≤ n * d := by
  have hsteps : ((tenTo (digitCount n - 1) : ℕ) : ℚ) ≤ n := Nat.cast_le.mpr (tenTo_digitCount_le hn)
  have hpositive : (0 : ℚ) < 10 ^ place := by positivity
  calc (10 : ℚ) ^ m = 10 ^ (m : ℤ) := (zpow_natCast _ _).symm
    _ ≤ 10 ^ (place + (digitCount n - 1 : ℕ)) := zpow_le_zpow_right₀ (by norm_num) h
    _ = (tenTo (digitCount n - 1) : ℕ) * 10 ^ place := by
      rw [zpow_add₀ (by norm_num), zpow_natCast, cast_tenTo, mul_comm]
    _ ≤ n * d := mul_le_mul hsteps hd hpositive.le (Nat.cast_nonneg n)

/-- From ten on powers leave the range as the place of the leading digit, times the exponent, does. -/
theorem pow_above_of_large {leading : ℕ} (hleading : 0 < leading) (hn : 0 < n) (hx : (10 : ℚ) ^ leading ≤ x)
    (h : 6 < digitCount leading - 1 + (digitCount n - 1)) : (10 : ℚ) ^ (maxExponent + 1) ≤ x ^ n := by
  have hmore : 1000000 ≤ leading * n := by
    calc 1000000 ≤ tenTo 7 := by decide
      _ ≤ tenTo (digitCount leading - 1 + (digitCount n - 1)) := tenTo_le_tenTo h
      _ ≤ leading * n := tenTo_le_mul hleading hn
  rw [maxExponent_succ, zpow_natCast]
  calc (10 : ℚ) ^ 1000000 ≤ 10 ^ (leading * n) := pow_le_pow_right₀ (by norm_num) hmore
    _ = (10 ^ leading) ^ n := pow_mul _ _ _
    _ ≤ x ^ n := pow_le_pow_left₀ (by positivity) hx n

/-- Below a tenth powers go below the last place likewise. -/
theorem pow_below_of_small {leading : ℕ} (hleading : 0 < leading) (hn : 0 < n) (hpositive : 0 < x)
    (hx : x < (10 : ℚ) ^ (-(leading : ℤ)))
    (h : digitCount c.lastPlace.natAbs < digitCount leading - 1 + (digitCount n - 1)) :
    x ^ n < (10 : ℚ) ^ c.lastPlace := by
  have hmore : c.lastPlace.natAbs ≤ leading * n := by
    calc c.lastPlace.natAbs ≤ tenTo (digitCount c.lastPlace.natAbs) := (lt_tenTo_digitCount _).le
      _ ≤ tenTo (digitCount leading - 1 + (digitCount n - 1)) := tenTo_le_tenTo h.le
      _ ≤ leading * n := tenTo_le_mul hleading hn
  calc x ^ n < ((10 : ℚ) ^ (-(leading : ℤ))) ^ n := pow_lt_pow_left₀ hx hpositive.le hn.ne'
    _ = 10 ^ (-((leading * n : ℕ) : ℤ)) := by
      rw [← zpow_natCast, ← zpow_mul]
      push_cast
      rw [neg_mul]
    _ ≤ 10 ^ c.lastPlace := by
      refine zpow_le_zpow_right₀ (by norm_num) ?_
      rw [lastPlace_eq c]
      omega

/-- Between one and ten the distance from one decides. -/
theorem pow_above_of_near {d : ℚ} {place : ℤ} (hn : 0 < n) (hd : (10 : ℚ) ^ place ≤ d) (hless : d < 9)
    (h : 6 < place - 2 + (digitCount n - 1 : ℕ)) : (10 : ℚ) ^ (maxExponent + 1) ≤ (1 + d) ^ n := by
  have hpositive : 0 < d := lt_of_lt_of_le (by positivity) hd
  have hsteps := tenTo_le_steps hd hn (m := 9) (by push_cast; omega)
  rw [maxExponent_succ, zpow_natCast]
  refine tenTo_le_one_add_pow hpositive (le_trans ?_ hsteps)
  push_cast
  linarith

/-- Between a tenth and one it decides as well. -/
theorem pow_below_of_near {d : ℚ} {place : ℤ} (hn : 0 < n) (hd : (10 : ℚ) ^ place ≤ d) (hless : d < 1)
    (h : (digitCount c.lastPlace.natAbs : ℤ) < place - 1 + (digitCount n - 1 : ℕ)) :
    (1 - d) ^ n < (10 : ℚ) ^ c.lastPlace := by
  have hpositive : 0 < d := lt_of_lt_of_le (by positivity) hd
  have hsteps := tenTo_le_steps hd hn (m := digitCount c.lastPlace.natAbs + 2) (by push_cast; omega)
  have hdigits : ((c.lastPlace.natAbs + 1 : ℕ) : ℚ) ≤ 10 ^ digitCount c.lastPlace.natAbs := by
    rw [← cast_tenTo]
    exact Nat.cast_le.mpr (lt_tenTo_digitCount _)
  have hgrowth : (10 : ℚ) ^ (c.lastPlace.natAbs + 1) ≤ (1 + d) ^ n := by
    refine tenTo_le_one_add_pow hpositive (le_trans ?_ hsteps)
    calc (9 + d) * ((c.lastPlace.natAbs + 1 : ℕ) : ℚ)
        ≤ 10 ^ 2 * 10 ^ digitCount c.lastPlace.natAbs :=
          mul_le_mul (by linarith) hdigits (Nat.cast_nonneg _) (by norm_num)
      _ = 10 ^ (digitCount c.lastPlace.natAbs + 2) := by rw [pow_add, mul_comm]
  have hreciprocal : (1 - d) ^ n * (1 + d) ^ n ≤ 1 := by
    rw [← mul_pow]
    exact pow_le_one₀ (mul_nonneg (by linarith) (by linarith)) (by nlinarith)
  have hpower : (1 - d) ^ n * (10 : ℚ) ^ (c.lastPlace.natAbs + 1) ≤ 1 :=
    le_trans (mul_le_mul_of_nonneg_left hgrowth (pow_nonneg (by linarith) n)) hreciprocal
  have hten : (10 : ℚ) ^ c.lastPlace * 10 ^ (c.lastPlace.natAbs + 1) = 10 := by
    rw [← zpow_natCast, ← zpow_add₀ (by norm_num)]
    have hplaces : c.lastPlace + ((c.lastPlace.natAbs + 1 : ℕ) : ℤ) = 1 := by
      have hlast := lastPlace_eq c
      rw [Nat.cast_add, Nat.cast_one]
      omega
    rw [hplaces, zpow_one]
  have hlarge : (0 : ℚ) < 10 ^ (c.lastPlace.natAbs + 1) := by positivity
  exact lt_of_mul_lt_mul_right (by linarith) hlarge.le

/-- A number that is held and is not zero does not lie below the last place. -/
theorem Holds.tenTo_lastPlace_le (h : c.Holds x) (hx : x ≠ 0) : (10 : ℚ) ^ c.lastPlace ≤ |x| := by
  obtain ⟨⟨k, place, hvalue, -, hlast⟩, -⟩ := h
  have hk : (1 : ℚ) ≤ k := by
    rw [Nat.one_le_cast, Nat.one_le_iff_ne_zero]
    rintro rfl
    rw [Nat.cast_zero, zero_mul] at hvalue
    exact hx (abs_eq_zero.mp hvalue)
  calc (10 : ℚ) ^ c.lastPlace ≤ 10 ^ place := zpow_le_zpow_right₀ (by norm_num) hlast
    _ ≤ k * 10 ^ place := le_mul_of_one_le_left (by positivity) hk
    _ = |x| := hvalue.symm

variable {base : Decimal}

/-- A power that is held is not taken for one out of range. -/
theorem Holds.powerLeavesRange_eq_false (h : c.Holds (base.value ^ n)) (hn : 0 < n)
    (hbase : base.coefficient ≠ 0) (hone : |base.value| ≠ 1) : c.powerLeavesRange base n = false := by
  have hvalue : base.value ≠ 0 := fun hzero => hbase (Decimal.value_eq_zero_iff.mp hzero)
  have hpositive : 0 < |base.value| := abs_pos.mpr hvalue
  have hupper := h.range
  have hlower := h.tenTo_lastPlace_le (pow_ne_zero n hvalue)
  rw [abs_pow] at hupper hlower
  have hlow : (10 : ℚ) ^ base.adjusted ≤ |base.value| := Decimal.tenTo_adjusted_le hbase
  have hhigh := base.abs_value_lt
  have hdistance := base.value_distance
  have hleading : base.magnitude.adjusted = base.adjusted := rfl
  rw [powerLeavesRange, decide_eq_false_iff_not]
  intro hleaves
  have hcount := digitCount_pos n
  rw [Context.logarithmBound, hleading] at hleaves
  generalize hdecimal : (⟨false, ((base.magnitude.coefficientAt (min base.magnitude.exponent 0) : Int) -
    Decimal.one.coefficientAt (min base.magnitude.exponent 0)).natAbs,
    min base.magnitude.exponent 0⟩ : Decimal) = distance at hdistance
  simp only [hdecimal] at hleaves
  have hdigit : distance.coefficient ≠ 0 := by
    rw [ne_eq, ← Decimal.value_eq_zero_iff, hdistance, abs_eq_zero, sub_eq_zero]
    exact hone
  have haway : (10 : ℚ) ^ distance.adjusted ≤ |(|base.value| - 1)| := by
    have hle := Decimal.tenTo_adjusted_le hdigit
    rwa [hdistance, abs_abs] at hle
  -- Far from one the place of the leading digit is what the bound looks at, near one it is the distance.
  obtain hlarge | hunit | htenth | htiny :
      0 < base.adjusted ∨ base.adjusted = 0 ∨ base.adjusted = -1 ∨ base.adjusted < -1 := by omega
  · obtain ⟨leading, hcast⟩ := Int.eq_ofNat_of_zero_le hlarge.le
    have hdigits := digitCount_pos leading
    rw [if_neg (by omega), if_pos hlarge, digitCount_maxExponent, hcast, Int.natAbs_natCast] at hleaves
    rw [hcast, zpow_natCast] at hlow
    have habove := pow_above_of_large (by omega) hn hlow (by omega)
    linarith
  · rw [if_neg (by omega), if_neg (by omega), if_neg (by omega), if_pos hunit, digitCount_maxExponent]
      at hleaves
    rw [hunit, zpow_zero] at hlow
    rw [hunit] at hhigh
    have hten : |base.value| < 10 := by simpa using hhigh
    rw [abs_of_nonneg (by linarith)] at haway
    have habove := pow_above_of_near hn haway (by linarith) (by omega)
    rw [add_sub_cancel] at habove
    linarith
  · rw [if_pos (by omega), if_neg (by omega), if_neg (by omega), if_neg (by omega)] at hleaves
    rw [htenth] at hhigh
    have hless : |base.value| < 1 := by simpa using hhigh
    rw [abs_of_nonpos (by linarith), neg_sub] at haway
    have hbelow : (1 - (1 - |base.value|)) ^ n < (10 : ℚ) ^ c.lastPlace :=
      pow_below_of_near hn haway (by linarith) (by omega)
    rw [sub_sub_cancel] at hbelow
    linarith
  · obtain ⟨leading, hcast⟩ := Int.eq_ofNat_of_zero_le (show 0 ≤ -(base.adjusted + 1) by omega)
    have hplace : base.adjusted + 1 = -(leading : ℤ) := by omega
    have hdigits := digitCount_pos leading
    rw [if_pos (by omega), if_neg (by omega), if_pos htiny, hplace, Int.natAbs_neg, Int.natAbs_natCast]
      at hleaves
    rw [hplace] at hhigh
    have hbelow : |base.value| ^ n < (10 : ℚ) ^ c.lastPlace :=
      pow_below_of_small (by omega) hn hpositive hhigh (by omega)
    linarith

/-- A whole power that is held is the result. -/
theorem Holds.exists_power (h : c.Holds (base.value ^ n)) (hprecision : 0 < c.precision) (hn : 0 < n) :
    ∃ r, c.power base n = .ok r ∧ r.value = base.value ^ n := by
  unfold power
  dsimp only
  split
  next hzero =>
    refine ⟨_, rfl, ?_⟩
    rw [Decimal.value_of_isZero hzero, zero_pow hn.ne']
    exact Decimal.value_of_isZero rfl
  next hzero =>
    have hbase : base.coefficient ≠ 0 := by rwa [Decimal.isZero_iff] at hzero
    split
    next hcompare =>
      have hone : |base.value| = 1 := (Decimal.compare_magnitude_one hbase).mp (by simpa using hcompare)
      refine ⟨_, rfl, Decimal.value_eq_pow rfl ?_⟩
      have hten : (10 : ℚ) ^ min (n * (-base.exponent).toNat) (c.precision - 1) ≠ 0 :=
        pow_ne_zero _ (by norm_num)
      rw [hone, one_pow, Decimal.abs_value, cast_tenTo, zpow_neg, zpow_natCast, mul_inv_cancel₀ hten]
    next hcompare =>
      have hone : |base.value| ≠ 1 := fun hone =>
        hcompare (by simpa using (Decimal.compare_magnitude_one hbase).mpr hone)
      rw [h.powerLeavesRange_eq_false hn hbase hone]
      -- The lower powers have no more digits than the last one once their zeros are gone.
      obtain ⟨k, place, hk, hx⟩ := Decimal.exists_stripped hbase
      have hwide : c.precision ≤ c.precision + digitCount n + 2 := by omega
      have hpowers (low : ℕ) (hlow : low ≤ n) :
          Holds ⟨c.precision + digitCount n + 2, .halfEven⟩ (base.value ^ low) :=
        h.pow_of_le hx hk hwide hlow
      have hfirst : base.value = base.value ^ (n / 2 ^ n.log2) := by rw [div_two_pow_log2 hn, pow_one]
      obtain ⟨exact, hexact, hvalue⟩ := exists_squareAndMultiply (Nat.succ_pos _) hbase hpowers hfirst
      have hsigned :
          Decimal.value { exact with negative := base.negative && n % 2 == 1 } = base.value ^ n := by
        refine Decimal.value_eq_pow rfl ?_
        rw [← abs_pow, ← hvalue, Decimal.abs_value, Decimal.abs_value]
      rw [← hsigned] at h
      obtain ⟨r, hr, hrounded⟩ := h.exists_round hprecision
      refine ⟨r, ?_, hrounded.trans hsigned⟩
      rw [hexact]
      exact hr

end Context

end Formula
