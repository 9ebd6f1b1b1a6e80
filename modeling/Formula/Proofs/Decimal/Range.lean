import Formula.Decimal.Arithmetic
import Mathlib.Data.Nat.Log

/-! # The range of a context

Rounding fails only where the result lies above the range of the context. A decimal whose digits end well
below the bound can be rounded to every context, however few digits that keeps.
-/
namespace Formula

namespace Context

variable {c : Context} {d : Decimal} {signal : Signal}

theorem overflow_of_inRange (h : inRange d = .error signal) : signal = .overflow := by
  unfold inRange at h
  split at h
  · exact (Except.error.inj h).symm
  · cases h

theorem overflow_of_round (h : c.round d = .error signal) : signal = .overflow := by
  unfold round at h
  split at h
  · cases h
  split at h
  · exact (Except.error.inj h).symm
  split at h
  · cases h
  unfold toPrecision at h
  dsimp only at h
  split at h
  · cases h
  split at h
  · cases h
  · exact overflow_of_inRange h

end Context

theorem digitCountBelow_le (k n : Nat) : digitCountBelow k n ≤ twoTo k := by
  induction k generalizing n with
  | zero => exact Nat.le_refl 1
  | succ k ih =>
    have hdouble : twoTo (k + 1) = twoTo k * 2 := Nat.pow_succ 2 k
    unfold digitCountBelow
    split
    next =>
      have hless := ih n
      omega
    next =>
      have hrest := ih (n / tenTo (twoTo k))
      omega

theorem digitCount_le (n : Nat) : digitCount n ≤ 2 * Nat.log2 n + 2 := by
  have hcount := digitCountBelow_le (Nat.log2 (Nat.log2 n) + 1) n
  have hdouble : twoTo (Nat.log2 (Nat.log2 n) + 1) = twoTo (Nat.log2 (Nat.log2 n)) * 2 :=
    Nat.pow_succ 2 _
  unfold digitCount
  by_cases hzero : Nat.log2 n = 0
  · rw [hzero] at hcount ⊢
    exact hcount
  · have hlog : twoTo (Nat.log2 (Nat.log2 n)) ≤ Nat.log2 n := Nat.log2_self_le hzero
    omega

theorem Rounding.dropDigits_le (mode : Rounding) (negative : Bool) (n k : Nat) :
    mode.dropDigits negative n k ≤ n + 1 := by
  have hquotient : n / tenTo (min k (digitCount n + 1)) ≤ n := Nat.div_le_self _ _
  unfold dropDigits divide
  dsimp only
  split <;> omega

/-- However it is rounded, a decimal has at most as many more digits as its coefficient has binary ones. A
decimal that far within the range fits every context. -/
theorem Context.exists_round (c : Context) {d : Decimal}
    (hrange : d.exponent + d.digits + 2 * Nat.log2 (d.coefficient + 1) + 3 ≤ maxExponent) :
    ∃ rounded, c.round d = .ok rounded := by
  have hadjusted : d.adjusted ≤ maxExponent := by
    unfold Decimal.adjusted Decimal.digits at *
    omega
  unfold round
  split
  · exact ⟨_, rfl⟩
  rw [if_neg (by omega)]
  split
  · exact ⟨_, rfl⟩
  unfold toPrecision
  dsimp only
  split
  · exact ⟨_, rfl⟩
  split
  · exact ⟨_, rfl⟩
  generalize hkept : c.rounding.dropDigits d.negative d.coefficient (d.digits - c.precision) = kept
  have hle : kept ≤ d.coefficient + 1 := hkept ▸ Rounding.dropDigits_le ..
  have hcount : digitCount (kept / 10) ≤ 2 * Nat.log2 (d.coefficient + 1) + 2 := by
    have hlog : Nat.log2 (kept / 10) ≤ Nat.log2 (d.coefficient + 1) := by
      rw [Nat.log2_eq_log_two, Nat.log2_eq_log_two]
      exact Nat.log_mono_right (le_trans (Nat.div_le_self _ _) hle)
    have hdigits := digitCount_le (kept / 10)
    omega
  rw [inRange, if_neg]
  · exact ⟨_, rfl⟩
  · simp only [Decimal.adjusted]
    omega

end Formula
