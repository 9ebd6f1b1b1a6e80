import Formula.Decimal.Basic

/-! # How many digits a number has

The count that halving finds is the number of digits: the number lies below the power of ten with so
many zeros, and not below the one before it.
-/
namespace Formula

variable {k m n : Nat}

theorem tenTo_succ (k : Nat) : tenTo (k + 1) = tenTo k * 10 := Nat.pow_succ 10 k

theorem tenTo_add (k l : Nat) : tenTo (k + l) = tenTo k * tenTo l := Nat.pow_add 10 k l

theorem tenTo_pos (k : Nat) : 0 < tenTo k := Nat.pow_pos (by decide)

theorem tenTo_le_tenTo (h : m ≤ n) : tenTo m ≤ tenTo n := Nat.pow_le_pow_right (by decide) h

theorem tenTo_lt_tenTo (h : m < n) : tenTo m < tenTo n := Nat.pow_lt_pow_right (by decide) h

theorem div_tenTo_lt_iff (l : Nat) : n / tenTo l < tenTo k ↔ n < tenTo (k + l) := by
  rw [Nat.div_lt_iff_lt_mul (tenTo_pos l), tenTo_add]

theorem digitCountBelow_pos (k n : Nat) : 0 < digitCountBelow k n := by
  induction k generalizing n with
  | zero => exact Nat.one_pos
  | succ k ih =>
    unfold digitCountBelow
    split
    · exact ih n
    · exact Nat.add_pos_left (ih _) _

theorem lt_tenTo_digitCountBelow (h : n < tenTo (twoTo k)) : n < tenTo (digitCountBelow k n) := by
  induction k generalizing n with
  | zero => exact h
  | succ k ih =>
    have hdouble : twoTo (k + 1) = twoTo k + twoTo k := (Nat.pow_succ 2 k).trans (Nat.mul_two _)
    unfold digitCountBelow
    split
    next hless => exact ih hless
    next =>
      rw [hdouble] at h
      exact (div_tenTo_lt_iff _).mp (ih ((div_tenTo_lt_iff _).mpr h))

theorem tenTo_digitCountBelow_le (h : n < tenTo (twoTo k)) (hpositive : 0 < n) :
    tenTo (digitCountBelow k n - 1) ≤ n := by
  induction k generalizing n with
  | zero => exact hpositive
  | succ k ih =>
    have hdouble : twoTo (k + 1) = twoTo k + twoTo k := (Nat.pow_succ 2 k).trans (Nat.mul_two _)
    unfold digitCountBelow
    split
    next hless => exact ih hless hpositive
    next hmore =>
      rw [hdouble] at h
      have hquotient : 0 < n / tenTo (twoTo k) := Nat.div_pos (Nat.le_of_not_lt hmore) (tenTo_pos _)
      have hleading := ih ((div_tenTo_lt_iff _).mpr h) hquotient
      have hcount := digitCountBelow_pos k (n / tenTo (twoTo k))
      have hplaces : digitCountBelow k (n / tenTo (twoTo k)) + twoTo k - 1 =
          digitCountBelow k (n / tenTo (twoTo k)) - 1 + twoTo k := by omega
      rw [hplaces, tenTo_add]
      exact (Nat.le_div_iff_mul_le (tenTo_pos _)).mp hleading

theorem lt_tenTo_twoTo (n : Nat) : n < tenTo (twoTo (Nat.log2 (Nat.log2 n) + 1)) := by
  have hbits : n < 2 ^ (Nat.log2 n + 1) := Nat.lt_log2_self
  have hcount : Nat.log2 n + 1 ≤ twoTo (Nat.log2 (Nat.log2 n) + 1) := Nat.lt_log2_self
  calc n < 2 ^ (Nat.log2 n + 1) := hbits
    _ ≤ 2 ^ twoTo (Nat.log2 (Nat.log2 n) + 1) := Nat.pow_le_pow_right (by decide) hcount
    _ ≤ tenTo (twoTo (Nat.log2 (Nat.log2 n) + 1)) := Nat.pow_le_pow_left (by decide) _

theorem digitCount_pos (n : Nat) : 0 < digitCount n := digitCountBelow_pos _ n

theorem lt_tenTo_digitCount (n : Nat) : n < tenTo (digitCount n) :=
  lt_tenTo_digitCountBelow (lt_tenTo_twoTo n)

theorem tenTo_digitCount_le (h : 0 < n) : tenTo (digitCount n - 1) ≤ n :=
  tenTo_digitCountBelow_le (lt_tenTo_twoTo n) h

/-- A number is written with at most `k` digits if it lies below the power with `k` zeros. -/
theorem digitCount_le_iff (hk : 0 < k) : digitCount n ≤ k ↔ n < tenTo k := by
  constructor
  · intro h
    exact Nat.lt_of_lt_of_le (lt_tenTo_digitCount n) (tenTo_le_tenTo h)
  · intro h
    apply Nat.le_of_not_lt
    intro hmore
    rcases Nat.eq_zero_or_pos n with rfl | hpositive
    · have hone : digitCount 0 = 1 := by decide
      omega
    · have hleading := tenTo_digitCount_le hpositive
      have hpower : tenTo k ≤ tenTo (digitCount n - 1) := tenTo_le_tenTo (by omega)
      omega

theorem digitCount_eq (hlow : tenTo k ≤ n) (hhigh : n < tenTo (k + 1)) : digitCount n = k + 1 := by
  have hle := (digitCount_le_iff (Nat.succ_pos k)).mpr hhigh
  rcases Nat.eq_zero_or_pos k with rfl | hk
  · have hcount := digitCount_pos n
    omega
  · have hmore : ¬ digitCount n ≤ k := by
      rw [digitCount_le_iff hk]
      omega
    omega

theorem digitCount_tenTo (k : Nat) : digitCount (tenTo k) = k + 1 :=
  digitCount_eq (Nat.le_refl _) (tenTo_lt_tenTo (Nat.lt_succ_self k))

end Formula
