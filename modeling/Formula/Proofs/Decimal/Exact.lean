import Formula.Decimal.Power
import Formula.Proofs.Decimal.Value
import Mathlib.Data.Nat.Prime.Basic

/-! # Results that need no rounding

A context holds a number that it can write with the digits and the places it has. Such a number comes out of
rounding as it went in, and so do products and whole powers where all that is on the way can be written.
-/
namespace Formula

namespace Rounding

/-- Dropping zeros leaves nothing to round. -/
theorem dropDigits_mul_tenTo (mode : Rounding) (negative : Bool) {n : Nat} (hn : n ≠ 0) (k : Nat) :
    mode.dropDigits negative (n * tenTo k) k = n := by
  have hplaces : k ≤ digitCount (n * tenTo k) + 1 := by
    have hless : tenTo k < tenTo (digitCount (n * tenTo k) + 1) := by
      calc tenTo k ≤ n * tenTo k := Nat.le_mul_of_pos_left _ (Nat.pos_of_ne_zero hn)
        _ < tenTo (digitCount (n * tenTo k)) := lt_tenTo_digitCount _
        _ ≤ tenTo (digitCount (n * tenTo k) + 1) := tenTo_le_tenTo (Nat.le_succ _)
    have hpower : k < digitCount (n * tenTo k) + 1 := (Nat.pow_lt_pow_iff_right (by decide)).mp hless
    omega
  rw [dropDigits, Nat.min_eq_left hplaces, divide, Nat.mul_mod_left, Nat.mul_div_cancel _ (tenTo_pos k)]
  simp

theorem dropDigits_of_eq_mul (mode : Rounding) (negative : Bool) {m k t : Nat} (hm : m ≠ 0)
    (hk : m = k * tenTo t) : mode.dropDigits negative m t = k := by
  have hk0 : k ≠ 0 := by
    rintro rfl
    exact hm (hk.trans (Nat.zero_mul _))
  rw [hk]
  exact mode.dropDigits_mul_tenTo negative hk0 t

end Rounding

namespace Context

variable {c wide : Context} {d : Decimal} {x : ℚ}

theorem maxExponent_succ : maxExponent + 1 = ((1000000 : ℕ) : ℤ) := rfl

/-- The number can be written with the digits and down to the last place of the context, and does not begin
above the range. -/
structure Holds (c : Context) (x : ℚ) : Prop where
  written : ∃ (k : ℕ) (place : ℤ), |x| = k * 10 ^ place ∧ k < tenTo c.precision ∧ c.lastPlace ≤ place
  range : |x| < 10 ^ (maxExponent + 1)

theorem Holds.of_abs {y : ℚ} (h : c.Holds x) (hxy : |y| = |x|) : c.Holds y := by
  obtain ⟨hwritten, hrange⟩ := h
  rw [← hxy] at hwritten hrange
  exact ⟨hwritten, hrange⟩

/-- What has too low an exponent has zeros to drop. -/
theorem Holds.exists_zeros (h : c.Holds d.value) (hplace : d.exponent < c.lastPlace) :
    ∃ k, d.coefficient = k * tenTo (c.lastPlace - d.exponent).toNat := by
  obtain ⟨⟨k, place, hvalue, -, hlast⟩, -⟩ := h
  rw [Decimal.abs_value] at hvalue
  have hcoefficient := eq_mul_tenTo (by omega) hvalue
  have hsplit : (place - d.exponent).toNat =
      (place - c.lastPlace).toNat + (c.lastPlace - d.exponent).toNat := by omega
  refine ⟨k * tenTo (place - c.lastPlace).toNat, ?_⟩
  rw [hcoefficient, hsplit, tenTo_add, ← Nat.mul_assoc]

/-- What has too many digits has zeros to drop. -/
theorem Holds.exists_leading (h : c.Holds d.value) (hprecision : 0 < c.precision)
    (hdigits : c.precision < d.digits) :
    ∃ k, d.coefficient = k * tenTo (d.digits - c.precision) ∧ k < tenTo c.precision := by
  obtain ⟨⟨k, place, hvalue, hk, -⟩, -⟩ := h
  have hmore : ¬ d.coefficient < tenTo c.precision := by
    rw [← digitCount_le_iff hprecision]
    exact Nat.not_le.mpr hdigits
  have hpositive : 0 < d.coefficient := by
    have hone := tenTo_pos c.precision
    omega
  rw [Decimal.abs_value] at hvalue
  have hplaces : d.exponent ≤ place := by
    by_contra hless
    have hback := eq_mul_tenTo (Int.le_of_not_le hless) hvalue.symm
    have hle : d.coefficient ≤ k := by
      rw [hback]
      exact Nat.le_mul_of_pos_right _ (tenTo_pos _)
    omega
  have hcoefficient := eq_mul_tenTo hplaces hvalue
  -- The digits beyond the precision are among the zeros.
  have hzeros : d.digits - c.precision ≤ (place - d.exponent).toNat := by
    have hless : tenTo (d.digits - 1) < tenTo (c.precision + (place - d.exponent).toNat) := by
      calc tenTo (d.digits - 1) ≤ d.coefficient := tenTo_digitCount_le hpositive
        _ = k * tenTo (place - d.exponent).toNat := hcoefficient
        _ < tenTo c.precision * tenTo (place - d.exponent).toNat :=
          Nat.mul_lt_mul_of_pos_right hk (tenTo_pos _)
        _ = tenTo (c.precision + (place - d.exponent).toNat) := (tenTo_add _ _).symm
    have hpower : d.digits - 1 < c.precision + (place - d.exponent).toNat :=
      (Nat.pow_lt_pow_iff_right (by decide)).mp hless
    omega
  have hsplit : (place - d.exponent).toNat =
      ((place - d.exponent).toNat - (d.digits - c.precision)) + (d.digits - c.precision) := by omega
  have hkept : d.coefficient =
      k * tenTo ((place - d.exponent).toNat - (d.digits - c.precision)) * tenTo (d.digits - c.precision) := by
    rw [Nat.mul_assoc, ← tenTo_add, ← hsplit]
    exact hcoefficient
  refine ⟨_, hkept, ?_⟩
  have hless : d.coefficient < tenTo c.precision * tenTo (d.digits - c.precision) := by
    rw [← tenTo_add, Nat.add_sub_cancel' (Nat.le_of_lt hdigits)]
    exact lt_tenTo_digitCount d.coefficient
  rw [hkept] at hless
  exact Nat.lt_of_mul_lt_mul_right hless

/-- Zeros at the end are dropped without rounding. -/
theorem value_dropZeros {negative : Bool} {m k t : Nat} {exponent : Int} (hm : m ≠ 0) (hk : m = k * tenTo t) :
    Decimal.value ⟨negative, c.rounding.dropDigits negative m t, exponent + t⟩ =
      Decimal.value ⟨negative, m, exponent⟩ := by
  rw [Rounding.dropDigits_of_eq_mul _ _ hm hk, hk, Decimal.value_shift]

theorem Holds.value_toLastPlace (h : c.Holds d.value) (hd : d.coefficient ≠ 0) :
    (c.toLastPlace d).value = d.value := by
  unfold toLastPlace
  split
  next => rfl
  next hplace =>
    obtain ⟨k, hk⟩ := h.exists_zeros (Int.not_le.mp hplace)
    have hlast : d.exponent + ((c.lastPlace - d.exponent).toNat : Int) = c.lastPlace := by omega
    have hdropped : Decimal.value ⟨d.negative, c.rounding.dropDigits d.negative d.coefficient
        (c.lastPlace - d.exponent).toNat, d.exponent + ((c.lastPlace - d.exponent).toNat : Int)⟩ = d.value :=
      value_dropZeros hd hk
    rwa [hlast] at hdropped

theorem Holds.exists_toPrecision (h : c.Holds d.value) (hprecision : 0 < c.precision)
    (hd : d.coefficient ≠ 0) : ∃ r, c.toPrecision d = .ok r ∧ r.value = d.value := by
  unfold toPrecision
  split
  next => exact ⟨_, rfl, rfl⟩
  next hdigits =>
    obtain ⟨k, hk, hless⟩ := h.exists_leading hprecision (Nat.not_le.mp hdigits)
    have hkept := c.rounding.dropDigits_of_eq_mul d.negative hd hk
    dsimp only
    rw [hkept, if_pos ((digitCount_le_iff hprecision).mpr hless), ← hkept]
    exact ⟨_, rfl, value_dropZeros hd hk⟩

/-- What the context holds comes out of rounding as it is. -/
theorem Holds.exists_round (h : c.Holds d.value) (hprecision : 0 < c.precision) :
    ∃ r, c.round d = .ok r ∧ r.value = d.value := by
  unfold round
  split
  next hzero =>
    have hnone : Decimal.value { d with exponent := max c.lastPlace (min maxExponent d.exponent) } = 0 :=
      Decimal.value_of_isZero hzero
    exact ⟨_, rfl, by rw [hnone, Decimal.value_of_isZero hzero]⟩
  next hzero =>
    have hd : d.coefficient ≠ 0 := by rwa [Decimal.isZero_iff] at hzero
    have hbegins := Decimal.adjusted_lt hd h.range
    rw [if_neg (by omega)]
    split
    next => exact ⟨_, rfl, h.value_toLastPlace hd⟩
    next => exact h.exists_toPrecision hprecision hd

theorem Holds.exists_multiply {a b : Decimal} (h : c.Holds (a.value * b.value))
    (hprecision : 0 < c.precision) : ∃ r, c.multiply a b = .ok r ∧ r.value = a.value * b.value := by
  rw [← Decimal.value_product] at h ⊢
  exact h.exists_round hprecision

theorem lastPlace_le (h : c.precision ≤ wide.precision) : wide.lastPlace ≤ c.lastPlace := by
  unfold lastPlace
  omega

theorem lastPlace_neg (c : Context) : c.lastPlace < 0 := by
  unfold lastPlace minExponent
  omega

/-- A power that can be written has no more digits than the coefficient without zeros, raised to it. -/
theorem Holds.stripped_pow {k n : ℕ} {place : ℤ} (hx : |x| = k * 10 ^ place) (hk : ¬ 10 ∣ k)
    (h : c.Holds (x ^ n)) : k ^ n < tenTo c.precision ∧ c.lastPlace ≤ place * n := by
  obtain ⟨⟨m, last, hvalue, hm, hlast⟩, -⟩ := h
  have hpower : ((k ^ n : ℕ) : ℚ) * 10 ^ (place * n) = m * 10 ^ last := by
    rw [← hvalue, abs_pow, hx, mul_pow, zpow_mul, zpow_natCast, Nat.cast_pow]
  have hplaces : last ≤ place * n := by
    by_contra hless
    have hmore := eq_mul_tenTo (Int.le_of_not_le hless) hpower
    obtain ⟨zeros, hzeros⟩ : ∃ zeros, (last - place * n).toNat = zeros + 1 :=
      ⟨(last - place * n).toNat - 1, by omega⟩
    have hten : 10 ∣ k ^ n := by
      rw [hmore, hzeros, tenTo_succ, ← Nat.mul_assoc]
      exact Nat.dvd_mul_left 10 _
    have htwo : 2 ∣ k := Nat.prime_two.dvd_of_dvd_pow (Nat.dvd_trans (by decide) hten)
    have hfive : 5 ∣ k := Nat.prime_five.dvd_of_dvd_pow (Nat.dvd_trans (by decide) hten)
    omega
  have hback := eq_mul_tenTo hplaces hpower.symm
  have hle : k ^ n ≤ m := by
    rw [hback]
    exact Nat.le_mul_of_pos_right _ (tenTo_pos _)
  omega

/-- If a power can be written, so can all lower ones. -/
theorem Holds.pow_of_le {k n low : ℕ} {place : ℤ} (hx : |x| = k * 10 ^ place) (hk : ¬ 10 ∣ k)
    (h : c.Holds (x ^ n)) (hwide : c.precision ≤ wide.precision) (hlow : low ≤ n) : wide.Holds (x ^ low) := by
  obtain ⟨hdigits, hplace⟩ := h.stripped_pow hx hk
  have hpositive : 0 < k := Nat.pos_of_ne_zero fun hzero => hk (hzero ▸ Nat.dvd_zero 10)
  constructor
  · refine ⟨k ^ low, place * low, ?_, ?_, ?_⟩
    · rw [abs_pow, hx, mul_pow, zpow_mul, zpow_natCast, Nat.cast_pow]
    · calc k ^ low ≤ k ^ n := Nat.pow_le_pow_right hpositive hlow
        _ < tenTo c.precision := hdigits
        _ ≤ tenTo wide.precision := tenTo_le_tenTo hwide
    · have hplaces := lastPlace_le hwide
      have hnegative := lastPlace_neg wide
      rcases Int.le_total 0 place with hup | hdown
      · have hproduct : 0 ≤ place * low := Int.mul_nonneg hup (Int.natCast_nonneg low)
        omega
      · have hproduct : place * n ≤ place * low :=
          Int.mul_le_mul_of_nonpos_left hdown (Int.ofNat_le.mpr hlow)
        omega
  · rw [abs_pow]
    have hrange := h.range
    rw [abs_pow] at hrange
    have hone : (1 : ℚ) < 10 ^ (maxExponent + 1) := one_lt_zpow₀ (by norm_num) (by decide)
    rcases le_total |x| 1 with hsmall | hlarge
    · exact lt_of_le_of_lt (pow_le_one₀ (abs_nonneg x) hsmall) hone
    · exact lt_of_le_of_lt (pow_le_pow_right₀ hlarge hlow) hrange

theorem squareAndMultiply_succ {base acc squared next : Decimal} {n bit : ℕ}
    (hsquared : c.multiply acc acc = .ok squared)
    (hnext : (if n.testBit bit then c.multiply squared base else .ok squared) = .ok next)
    (hnonzero : next.isZero = false) :
    c.squareAndMultiply base n (bit + 1) acc = c.squareAndMultiply base n bit next := by
  rw [squareAndMultiply, hsquared]
  simp only [bind, Except.bind, pure, Except.pure]
  split at hnext
  next hbit => simp [hbit, hnext, hnonzero]
  next hbit =>
    obtain rfl := Except.ok.inj hnext
    simp [hbit, hnonzero]

/-- Repeated squaring is exact where all the powers on the way can be written. -/
theorem exists_squareAndMultiply {base : Decimal} {n : ℕ} (hprecision : 0 < c.precision)
    (hbase : base.coefficient ≠ 0) (hpowers : ∀ k ≤ n, c.Holds (base.value ^ k)) {bits : ℕ} {acc : Decimal}
    (hacc : acc.value = base.value ^ (n / 2 ^ bits)) :
    ∃ r, c.squareAndMultiply base n bits acc = .ok r ∧ r.value = base.value ^ n := by
  -- What was multiplied so far is the power whose exponent has the bits that were read.
  induction bits generalizing acc with
  | zero => exact ⟨acc, rfl, by rw [hacc, Nat.pow_zero, Nat.div_one]⟩
  | succ bit ih =>
    have hhalf : n / 2 ^ (bit + 1) = n / 2 ^ bit / 2 := by rw [Nat.pow_succ, Nat.div_div_eq_div_mul]
    rw [hhalf] at hacc
    have hle : n / 2 ^ bit ≤ n := Nat.div_le_self _ _
    generalize hpart : n / 2 ^ bit = part at hacc hle
    have hsquare : acc.value * acc.value = base.value ^ (part / 2 + part / 2) := by rw [hacc, pow_add]
    have hheld : c.Holds (acc.value * acc.value) := by
      rw [hsquare]
      exact hpowers _ (by omega)
    obtain ⟨squared, hsquared, hvalue⟩ := hheld.exists_multiply hprecision
    have hnext : ∃ next, (if n.testBit bit then c.multiply squared base else .ok squared) = .ok next ∧
        next.value = base.value ^ part := by
      rw [Nat.testBit_eq_decide_div_mod_eq, hpart]
      by_cases hodd : part % 2 = 1
      · have hproduct : squared.value * base.value = base.value ^ part := by
          rw [hvalue, hsquare, ← pow_succ]
          congr 1
          omega
        have hheld : c.Holds (squared.value * base.value) := by
          rw [hproduct]
          exact hpowers _ hle
        obtain ⟨next, hnext, hvalue⟩ := hheld.exists_multiply hprecision
        exact ⟨next, by simpa [hodd] using hnext, hvalue.trans hproduct⟩
      · refine ⟨squared, by simp [hodd], ?_⟩
        rw [hvalue, hsquare]
        congr 1
        omega
    obtain ⟨next, hnext, hvalue⟩ := hnext
    have hnonzero : next.isZero = false := by
      rw [Decimal.isZero_eq_false_iff, ne_eq, ← Decimal.value_eq_zero_iff, hvalue]
      exact pow_ne_zero _ fun hzero => hbase (Decimal.value_eq_zero_iff.mp hzero)
    rw [← hpart] at hvalue
    rw [squareAndMultiply_succ hsquared hnext hnonzero]
    exact ih hvalue

end Context

end Formula
