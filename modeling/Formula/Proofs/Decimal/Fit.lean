import Formula.Decimal.Power
import Formula.Proofs.Decimal.Digits
import Formula.Proofs.Failure.Place

/-! # Numbers that fit a context

A number fits a context if it has no more digits than the context keeps and its leading digit is within
the range. Every operation that ends with rounding gives numbers that fit. Rounding to a whole number
pays no regard to the range: it may carry beyond it, to the first power of ten above.
-/
namespace Formula

open Context

/-- What is rounded off leaves at most the power of ten that has one digit more than are kept. -/
theorem Rounding.dropDigits_le_tenTo (mode : Rounding) (negative : Bool) {n k dropped : Nat}
    (h : n < tenTo (k + dropped)) : mode.dropDigits negative n dropped ≤ tenTo k := by
  have hquotient : n / tenTo (min dropped (digitCount n + 1)) < tenTo k := by
    rcases Nat.le_total dropped (digitCount n + 1) with hle | hle
    · rw [Nat.min_eq_left hle]
      exact (div_tenTo_lt_iff _).mpr h
    · rw [Nat.min_eq_right hle]
      have hless : n < tenTo (digitCount n + 1) :=
        Nat.lt_trans (lt_tenTo_digitCount n) (tenTo_lt_tenTo (Nat.lt_succ_self _))
      rw [Nat.div_eq_of_lt hless]
      exact tenTo_pos k
  unfold dropDigits divide
  dsimp only
  split
  · exact hquotient
  · exact Nat.le_of_lt hquotient

namespace Context

/-- The number has no more digits than the context keeps and, unless it is zero, does not begin above the
range. -/
structure Fits (c : Context) (d : Decimal) : Prop where
  digits : d.digits ≤ c.precision
  range : d.isZero = false → d.adjusted ≤ maxExponent

def Rounded {ε : Type} (c : Context) (result : Except ε Decimal) : Prop :=
  ∀ d, result = .ok d → c.Fits d

variable {c : Context} {d result : Decimal}

theorem Rounded.ok {ε : Type} (h : c.Fits d) : c.Rounded (.ok d : Except ε Decimal) :=
  fun _ heq => Except.ok.inj heq ▸ h

theorem Rounded.error {ε : Type} (failure : ε) : c.Rounded (.error failure : Except ε Decimal) := nofun

theorem Rounded.ite {ε : Type} {p : Prop} [Decidable p] {first second : Except ε Decimal}
    (h : c.Rounded first) (k : c.Rounded second) : c.Rounded (if p then first else second) := by
  split
  · exact h
  · exact k

theorem Rounded.bind {ε α : Type} {first : Except ε α} {next : α → Except ε Decimal}
    (h : ∀ a, c.Rounded (next a)) : c.Rounded (first >>= next) := by
  intro d hd
  obtain ⟨a, -, ha⟩ := exists_of_bind_eq_ok hd
  exact h a d ha

theorem Rounded.andThen {ε : Type} {first : Except ε Decimal} {next : Decimal → Except ε Decimal}
    (h : c.Rounded first) (hnext : ∀ d, c.Fits d → c.Rounded (next d)) : c.Rounded (first >>= next) := by
  intro result hresult
  obtain ⟨d, hd, hlast⟩ := exists_of_bind_eq_ok hresult
  exact hnext d (h d hd) result hlast

theorem Rounded.mapError {ε δ : Type} {result : Except ε Decimal} (h : c.Rounded result) (f : ε → δ) :
    c.Rounded (result.mapError f) := by
  cases result with
  | ok d => exact .ok (h d rfl)
  | error failure => exact .error _

section Rounding

variable (hprecision : 0 < c.precision)

include hprecision

theorem fits_of_isZero (h : d.isZero = true) : c.Fits d := by
  refine ⟨?_, fun hzero => ?_⟩
  · have hcoefficient : d.coefficient = 0 := by simpa [Decimal.isZero] using h
    have hone : digitCount 0 = 1 := by decide
    rw [Decimal.digits, hcoefficient, hone]
    exact hprecision
  · rw [h] at hzero
    cases hzero

/-- One digit in front of the point. -/
theorem fits_digit {n : Nat} (h : n < 10) : c.Fits (.ofNat n) := by
  have hdigits : digitCount n ≤ 1 := (digitCount_le_iff Nat.one_pos).mpr h
  refine ⟨Nat.le_trans hdigits hprecision, fun _ => ?_⟩
  simp only [Decimal.adjusted, Decimal.ofNat, maxExponent]
  omega

theorem fits_toLastPlace (hadjusted : d.adjusted < minExponent) : c.Fits (c.toLastPlace d) := by
  have hexponents : minExponent ≤ maxExponent := by decide
  unfold Decimal.adjusted at hadjusted
  unfold toLastPlace
  split
  next hplace =>
    unfold lastPlace at hplace
    refine ⟨?_, fun _ => ?_⟩
    · unfold Decimal.digits
      omega
    · unfold Decimal.adjusted
      omega
  next hplace =>
    have hless : d.coefficient < tenTo (c.precision - 1 + (c.lastPlace - d.exponent).toNat) := by
      refine Nat.lt_of_lt_of_le (lt_tenTo_digitCount _) (tenTo_le_tenTo ?_)
      unfold lastPlace at hplace ⊢
      omega
    have hkept := c.rounding.dropDigits_le_tenTo d.negative hless
    have hdigits : digitCount (c.rounding.dropDigits d.negative d.coefficient
        (c.lastPlace - d.exponent).toNat) ≤ c.precision := by
      refine (digitCount_le_iff hprecision).mpr (Nat.lt_of_le_of_lt hkept (tenTo_lt_tenTo ?_))
      omega
    refine ⟨hdigits, fun _ => ?_⟩
    unfold Decimal.adjusted lastPlace at *
    dsimp only at hdigits ⊢
    omega

theorem rounded_toPrecision (hadjusted : d.adjusted ≤ maxExponent) : c.Rounded (c.toPrecision d) := by
  unfold toPrecision
  split
  next hdigits => exact .ok ⟨hdigits, fun _ => hadjusted⟩
  next hdigits =>
    unfold Decimal.digits at *
    unfold Decimal.adjusted at hadjusted
    have hless : d.coefficient < tenTo (c.precision + (digitCount d.coefficient - c.precision)) := by
      have hsum : c.precision + (digitCount d.coefficient - c.precision) = digitCount d.coefficient := by
        omega
      rw [hsum]
      exact lt_tenTo_digitCount _
    have hkept := c.rounding.dropDigits_le_tenTo d.negative hless
    dsimp only
    generalize c.rounding.dropDigits d.negative d.coefficient (digitCount d.coefficient - c.precision) =
      kept at hkept
    split
    next hcount =>
      refine .ok ⟨hcount, fun _ => ?_⟩
      simp only [Decimal.adjusted]
      omega
    next =>
      unfold inRange
      split
      next => exact .error _
      next hrange =>
        refine .ok ⟨?_, fun _ => Int.not_lt.mp hrange⟩
        have hquotient : kept / 10 < tenTo c.precision := by
          have hpositive := tenTo_pos c.precision
          omega
        exact (digitCount_le_iff hprecision).mpr hquotient

/-- Whatever is rounded to a context fits it. -/
theorem rounded_round (d : Decimal) : c.Rounded (c.round d) := by
  unfold round
  split
  next hzero => exact .ok (fits_of_isZero hprecision hzero)
  split
  next => exact .error _
  next hrange =>
    split
    next hsmall => exact .ok (fits_toLastPlace hprecision hsmall)
    next => exact rounded_toPrecision hprecision (Int.not_lt.mp hrange)

theorem rounded_add (a b : Decimal) : c.Rounded (c.add a b) :=
  .ite (rounded_round hprecision _) (rounded_round hprecision _)

theorem rounded_subtract (a b : Decimal) : c.Rounded (c.subtract a b) := rounded_add hprecision a _

theorem rounded_multiply (a b : Decimal) : c.Rounded (c.multiply a b) := rounded_round hprecision _

theorem rounded_divide (a b : Decimal) : c.Rounded (c.divide a b) := by
  refine .ite (.error _) (.ite (rounded_round hprecision _) ?_)
  exact .ite (rounded_round hprecision _) (rounded_round hprecision _)

theorem rounded_remainder (a b : Decimal) : c.Rounded (c.remainder a b) := by
  refine .ite (.error _) (.ite (rounded_round hprecision _) (.ite (rounded_round hprecision _) ?_))
  exact .ite (.error _) (.ite (.error _) (rounded_round hprecision _))

theorem rounded_plus (d : Decimal) : c.Rounded (c.plus d) := rounded_round hprecision _

theorem rounded_minus (d : Decimal) : c.Rounded (c.minus d) := rounded_round hprecision _

theorem rounded_abs (d : Decimal) : c.Rounded (c.abs d) :=
  .ite (rounded_minus hprecision d) (rounded_plus hprecision d)

theorem rounded_quantize (d : Decimal) (exponent : Int) : c.Rounded (c.quantize d exponent) := by
  refine .ite (.error _) (.ite (rounded_round hprecision _) (.ite (.error _) ?_))
  exact .ite (.error _) (rounded_round hprecision _)

theorem rounded_power (base : Decimal) (n : Nat) : c.Rounded (c.power base n) := by
  unfold power
  dsimp only
  split
  next => exact .ok (fits_of_isZero hprecision rfl)
  split
  next =>
    -- A power of one: a one with at most as many zeros as there is room for.
    refine .ok ⟨?_, fun _ => ?_⟩
    · rw [Decimal.digits, digitCount_tenTo]
      omega
    · simp only [Decimal.adjusted, digitCount_tenTo, maxExponent]
      omega
  split
  next => exact .ite (rounded_round hprecision _) (.error _)
  next => exact .bind fun result => rounded_round hprecision _

end Rounding

/-- The first power of ten above the range, and its negative. Rounding to a whole number gives it if
there are digits enough to come that close. -/
def Spills (c : Context) (d : Decimal) : Prop :=
  1000000 < c.precision ∧ d.coefficient = tenTo 1000000 ∧ d.exponent = 0

theorem Spills.towardInteger (h : c.Spills d) (away : Bool) : c.Spills (d.towardInteger away) := by
  have hexponent : 0 ≤ d.exponent := Int.le_of_eq h.2.2.symm
  rwa [Decimal.towardInteger, if_pos hexponent]

/-- The whole part of a number with a fraction is shorter by the places of the fraction. -/
theorem wholeMagnitude_lt (hexponent : d.exponent < 0) :
    d.wholeMagnitude < tenTo (d.digits - (-d.exponent).toNat) := by
  unfold Decimal.wholeMagnitude
  rw [if_neg (Int.not_le.mpr hexponent)]
  split
  next => exact tenTo_pos _
  next hdigits =>
    refine (div_tenTo_lt_iff _).mpr ?_
    rw [Nat.sub_add_cancel (Nat.le_of_not_le hdigits)]
    exact lt_tenTo_digitCount _

theorem fits_or_spills_towardInteger (h : c.Fits d) (away : Bool) :
    c.Fits (d.towardInteger away) ∨ c.Spills (d.towardInteger away) := by
  have hprecision : 0 < c.precision := Nat.lt_of_lt_of_le (digitCount_pos _) h.digits
  have hdigits : d.digits ≤ c.precision := h.digits
  unfold Decimal.towardInteger
  split
  next => exact .inl h
  next hexponent =>
    have hwhole := wholeMagnitude_lt (Int.not_le.mp hexponent)
    have hadjusted : d.adjusted = d.exponent + d.digits - 1 := rfl
    have hrange := h.range
    generalize hplaces : d.digits - (-d.exponent).toNat = places at hwhole
    dsimp only
    -- Zero is whole already; any other number is known to begin within the range.
    cases hzero : d.isZero with
    | true =>
      have hintegral : d.isIntegral = true := by simp [Decimal.isIntegral, hzero]
      have hcoefficient : d.coefficient = 0 := by simpa [Decimal.isZero] using hzero
      have hnone : d.wholeMagnitude = 0 := by simp [Decimal.wholeMagnitude, Decimal.padded, hcoefficient]
      rw [hintegral, hnone]
      exact .inl (fits_of_isZero hprecision (by simp [Decimal.isZero]))
    | false =>
      have hbegins := hrange hzero
      have hkept : ∀ kept : Nat, kept < tenTo places → c.Fits ⟨d.negative, kept, 0⟩ := by
        intro kept hless
        rcases Nat.eq_zero_or_pos places with rfl | hpositive
        · have hnone : kept = 0 := Nat.lt_one_iff.mp hless
          exact fits_of_isZero hprecision (by simp [Decimal.isZero, hnone])
        · have hcount := (digitCount_le_iff hpositive).mpr hless
          refine ⟨?_, fun _ => ?_⟩
          · unfold Decimal.digits at *
            dsimp only
            omega
          · unfold Decimal.adjusted
            dsimp only
            omega
      split
      next =>
        rcases Nat.lt_or_ge (d.wholeMagnitude + 1) (tenTo places) with hless | hmore
        · exact .inl (hkept _ hless)
        · -- The carry gives a new digit: all digits before the point were nines.
          have hcarry : d.wholeMagnitude + 1 = tenTo places := Nat.le_antisymm hwhole hmore
          rw [hcarry]
          have hmax : maxExponent = 999999 := rfl
          by_cases hlast : d.adjusted = maxExponent
          · have hmillion : places = 1000000 := by omega
            refine .inr ⟨?_, by rw [hmillion], rfl⟩
            omega
          · refine .inl ⟨?_, fun _ => ?_⟩
            · rw [Decimal.digits, digitCount_tenTo]
              omega
            · simp only [Decimal.adjusted, digitCount_tenTo]
              omega
      next => exact .inl (hkept _ hwhole)

end Context

end Formula
