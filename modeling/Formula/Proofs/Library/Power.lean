import Formula.Evaluation
import Formula.Library.Standard
import Formula.Proofs.Decimal.Whole
import Formula.Proofs.Decimal.WholePower

/-! # Powers with whole exponents

The magnitude of an exponent is taken in the standard context, which keeps 28 digits. A whole exponent with no
more digits than that is the exponent of the power; of a longer one it is what is left there.
-/
namespace Formula

namespace Library

open Context

variable {c : Context} {base exponent size fraction rest result : Decimal} {n : Nat}

/-- Without a fraction and without a sign only the whole power is left to do. -/
theorem power_of_whole (hsize : standard.abs exponent = .ok size)
    (hfraction : c.remainder size .one = .ok fraction) (hzero : fraction.isZero = true)
    (hrest : c.subtract size fraction = .ok rest)
    (hresult : (if rest.truncate.toNat = 0 then .ok .one else c.power base rest.truncate.toNat) = .ok result)
    (hsign : exponent.isBelowZero = false) : power c base exponent = .ok result := by
  unfold power
  simp only [hsize, hfraction, hrest, hzero, hsign, signalled, Except.mapError, bind, Except.bind]
  split at hresult
  next hnone =>
    obtain rfl := Except.ok.inj hresult
    simp [hnone, pure, Except.pure]
  next hsome => simp [hsome, hresult, pure, Except.pure]

/-- The power with the exponent that is left in the standard context, where the context holds it. -/
theorem exists_power_whole (hprecision : 0 < c.precision) (hexponent : exponent.value = n)
    (hdigits : standard.roundedWhole n < tenTo c.precision) (hrange : standard.roundedWhole n < tenTo 1000000)
    (hheld : c.Holds (base.value ^ standard.roundedWhole n)) :
    ∃ result, power c base exponent = .ok result ∧ result.value = base.value ^ standard.roundedWhole n := by
  obtain ⟨size, hsize, hwhole⟩ := exists_abs_whole hexponent hrange
  obtain ⟨fraction, hfraction, hzero⟩ := exists_remainder_one hwhole hdigits hprecision
  have hsizeHeld : c.Holds size.value := by
    rw [hwhole]
    exact holds_natCast hdigits hrange
  obtain ⟨rest, hrest, hvalue⟩ := hsizeHeld.exists_subtract_zero hprecision hzero
  have htruncate : rest.truncate.toNat = standard.roundedWhole n :=
    Decimal.truncate_of_value (hvalue.trans hwhole)
  have hsign : exponent.isBelowZero = false := by
    cases hnegative : exponent.negative with
    | false => simp [Decimal.isBelowZero, hnegative]
    | true => simp [Decimal.isBelowZero, Decimal.isZero_of_negative hexponent hnegative]
  obtain ⟨result, hresult, hpower⟩ : ∃ result,
      (if rest.truncate.toNat = 0 then .ok .one else c.power base rest.truncate.toNat) = .ok result ∧
        result.value = base.value ^ standard.roundedWhole n := by
    rw [htruncate]
    split
    next hnone =>
      refine ⟨.one, rfl, ?_⟩
      rw [hnone, pow_zero, Decimal.one, Decimal.value_ofNat, Nat.cast_one]
    next hsome => exact hheld.exists_power hprecision (Nat.pos_of_ne_zero hsome)
  exact ⟨result, power_of_whole hsize hfraction hzero hrest hresult hsign, hpower⟩

/-- A power whose exponent is too long for the context once the standard one has rounded it is undefined. -/
theorem power_of_long (hprecision : 0 < c.precision) (hexponent : exponent.value = n)
    (hlong : tenTo c.precision ≤ standard.roundedWhole n) (hrange : standard.roundedWhole n < tenTo 1000000) :
    power c base exponent = .error (.numeric .undefined) := by
  obtain ⟨size, hsize, hwhole⟩ := exists_abs_whole hexponent hrange
  have hfraction := remainder_one_of_long hwhole hlong hprecision
  simp only [power, signalled, hsize, hfraction, Except.mapError, bind, Except.bind]

variable {settings : Settings} {room : Option Nat} {unit denomination : Option Denomination}
  {binding other : Option String}

theorem run_powerPlan (hresult : power settings.context base exponent = .ok result) (state : State) :
    applyEager room "^" (powerPlan settings [.number base unit binding, .number exponent denomination other])
      state = (.ok (.ofDecimal result), state) := by
  simp only [powerPlan, binary, Plan.number, Plan.attempt, hresult]
  rfl

theorem run_powerPlan_undefined (h : power settings.context base exponent = .error (.numeric .undefined))
    (state : State) :
    applyEager room "^" (powerPlan settings [.number base unit binding, .number exponent denomination other])
      state = (.error (.of (.operationFailed "^" "undefined numeric operation")), state) := by
  simp only [powerPlan, binary, Plan.number, Plan.attempt, h]
  rfl

end Library

namespace Node

/-- The values of the operands of a power are taken from left to right, and then the power. -/
theorem force_power {settings : Settings} {room next : Option Nat} (hroom : deeper room = some next)
    {id : Nat} {label : String} {offset : Nat} {left right : Node} {state middle last : State}
    {base exponent : Decimal} {unit denomination : Option Denomination} {binding other : Option String}
    (hleft : left.force settings next (state.countForce id) = (.ok (.number base unit binding), middle))
    (hright : right.force settings next middle = (.ok (.number exponent denomination other), last)) :
    (operation id label (Library.binaryOperator "^" 40 false Library.powerPlan) offset [left, right]).force
      settings room state = .located offset (applyEager next "^" (Library.powerPlan settings
        [.number base unit binding, .number exponent denomination other]) last) := by
  have hforced : forceAll next [] (operandsOf settings [left, right]) (state.countForce id) =
      (.ok [.number base unit binding, .number exponent denomination other], last) := by
    simp only [operandsOf, forceAll, hleft, hright]
    rfl
  rw [force, hroom]
  dsimp only [Library.binaryOperator, Behaviour.apply]
  rw [hforced]

end Node

open Context (standard)

/-- What is left of a long number is even. -/
theorem Context.roundedWhole_even {n : Nat} (h : tenTo 28 ≤ n) : Even (standard.roundedWhole n) := by
  have hcount : 28 < digitCount n := by
    rw [← Nat.not_le, digitCount_le_iff (by decide)]
    exact Nat.not_lt.mpr h
  obtain ⟨t, ht⟩ : ∃ t, digitCount n - standard.precision = t + 1 :=
    ⟨digitCount n - 29, by simp only [standard]; omega⟩
  rw [roundedWhole, ht, tenTo_succ, ← Nat.mul_assoc]
  exact (show Even 10 by decide).mul_left _

/-- Minus one, raised to a whole number of which the standard context leaves its exponent. -/
theorem Context.minusOne_pow_roundedWhole (n : Nat) :
    (-1 : ℚ) ^ standard.roundedWhole n = if n < tenTo 28 ∧ n % 2 = 1 then -1 else 1 := by
  rcases Nat.lt_or_ge n (tenTo 28) with hshort | hlong
  · have hsame : standard.roundedWhole n = n := by
      rcases eq_or_ne n 0 with rfl | hn
      · exact roundedWhole_zero standard
      · exact roundedWhole_of_digits hn ((digitCount_le_iff (by decide)).mpr hshort)
    rw [hsame]
    rcases Nat.even_or_odd n with heven | hodd
    · rw [heven.neg_one_pow, if_neg (by rw [Nat.even_iff.mp heven]; simp)]
    · rw [hodd.neg_one_pow, if_pos ⟨hshort, Nat.odd_iff.mp hodd⟩]
  · rw [(roundedWhole_even hlong).neg_one_pow, if_neg fun h => absurd h.1 (Nat.not_lt.mpr hlong)]

/-- A power of a number with a whole exponent is exact where the context holds it; but the exponent is taken
as the standard context leaves it, which are its leading 28 digits, and rounding may make it too long. -/
theorem Node.wholePower_evaluates {settings : Settings} {room next : Option Nat}
    (hroom : deeper room = some next) (hprecision : 0 < settings.context.precision)
    {id : Nat} {label : String} {offset : Nat} {left right : Node} {state middle last : State}
    {base exponent : Decimal} {unit denomination : Option Denomination} {binding other : Option String}
    {n : Nat}
    (hleft : left.force settings next (state.countForce id) = (.ok (.number base unit binding), middle))
    (hright : right.force settings next middle = (.ok (.number exponent denomination other), last))
    (hexponent : exponent.value = n) (hrange : standard.roundedWhole n < tenTo 1000000) :
    let evaluated := (operation id label (Library.binaryOperator "^" 40 false Library.powerPlan) offset
      [left, right]).force settings room state
    (standard.roundedWhole n < tenTo settings.context.precision →
      (settings.context.Holds (base.value ^ standard.roundedWhole n) →
        ∃ result, evaluated = (.ok (.ofDecimal result), last) ∧
          result.value = base.value ^ standard.roundedWhole n) ∧
      (base.value = -1 → ∃ result, evaluated = (.ok (.ofDecimal result), last) ∧
        result.value = if n < tenTo 28 ∧ n % 2 = 1 then -1 else 1)) ∧
    (tenTo settings.context.precision ≤ standard.roundedWhole n →
      evaluated =
        (.error (.at (.operationFailed "^" "undefined numeric operation") offset), last)) ∧
    ∀ k t, n = k * tenTo t → k < tenTo 28 → standard.roundedWhole n = n := by
  intro evaluated
  have hforced := @force_power settings room next hroom id label offset left right state middle last base
    exponent unit denomination binding other hleft hright
  have hpower (hdigits : standard.roundedWhole n < tenTo settings.context.precision)
      (hheld : settings.context.Holds (base.value ^ standard.roundedWhole n)) :
      ∃ result, evaluated = (.ok (.ofDecimal result), last) ∧
        result.value = base.value ^ standard.roundedWhole n := by
    obtain ⟨result, hresult, hvalue⟩ :=
      Library.exists_power_whole hprecision hexponent hdigits hrange hheld
    refine ⟨result, hforced.trans ?_, hvalue⟩
    rw [Library.run_powerPlan hresult]
    rfl
  refine ⟨fun hdigits => ⟨hpower hdigits, fun hbase => ?_⟩, fun hlong => ?_, fun k t hn hk => ?_⟩
  · have hone : settings.context.Holds (1 : ℕ) :=
      Context.holds_natCast (tenTo_lt_tenTo hprecision)
        (show tenTo 0 < tenTo 1000000 from tenTo_lt_tenTo (by decide))
    have hheld : settings.context.Holds (base.value ^ standard.roundedWhole n) := by
      refine hone.of_abs ?_
      rw [hbase, abs_pow, abs_neg, abs_one, one_pow, Nat.cast_one, abs_one]
    obtain ⟨result, hevaluated, hvalue⟩ := hpower hdigits hheld
    refine ⟨result, hevaluated, ?_⟩
    rw [hvalue, hbase]
    exact Context.minusOne_pow_roundedWhole n
  · refine hforced.trans ?_
    rw [Library.run_powerPlan_undefined (Library.power_of_long hprecision hexponent hlong hrange)]
    rfl
  · rw [hn]
    exact Context.roundedWhole_of_written ((digitCount_le_iff (by decide)).mpr hk) t

/-- Two to the tenth. -/
theorem Node.kilo_evaluates :
    let settings : Settings := ⟨⟨34, .halfEven⟩, false, false, {}⟩
    let two : Node := .constant 0 "2" (.ofNat 2)
    let ten : Node := .constant 1 "10" (.ofNat 10)
    let power : Node := .operation 2 "^" (Library.binaryOperator "^" 40 false Library.powerPlan) 2 [two, ten]
    ∃ result last, power.force settings none (.ofEnvironment .empty) = (.ok (.ofDecimal result), last) ∧
      result.value = 1024 := by
  intro settings two ten power
  have htwo : two.force settings none ((State.ofEnvironment .empty).countForce 2) =
      (.ok (.number (.ofNat 2) none none), _) := rfl
  have hten : ten.force settings none (((State.ofEnvironment .empty).countForce 2).countForce 0) =
      (.ok (.number (.ofNat 10) none none), _) := rfl
  have hwhole : standard.roundedWhole 10 = 10 := by decide
  have hrange {n : Nat} (hn : n < tenTo 4) : n < tenTo 1000000 :=
    Nat.lt_of_lt_of_le hn (tenTo_le_tenTo (by decide))
  have hvalue : (Decimal.ofNat 2).value ^ standard.roundedWhole 10 = (1024 : ℕ) := by
    rw [hwhole, Decimal.value_ofNat]
    norm_num
  have hheld : settings.context.Holds ((Decimal.ofNat 2).value ^ standard.roundedWhole 10) := by
    rw [hvalue]
    exact Context.holds_natCast (by decide) (hrange (by decide))
  have hpower : ∃ result, power.force settings none (.ofEnvironment .empty) = (.ok (.ofDecimal result), _) ∧
      result.value = (Decimal.ofNat 2).value ^ standard.roundedWhole 10 :=
    ((Node.wholePower_evaluates rfl (by decide) htwo hten (Decimal.value_ofNat 10)
      (hrange (by decide))).1 (by decide)).1 hheld
  obtain ⟨result, hresult, hequal⟩ := hpower
  refine ⟨result, _, hresult, ?_⟩
  rw [hequal, hvalue]
  norm_num

/-- Minus one, raised to an odd number with 29 digits. -/
theorem Node.minusOne_to_long_odd :
    let power : Node := .operation 3 "^" (Library.binaryOperator "^" 40 false Library.powerPlan) 5
      [.operation 1 "-" (Library.unaryOperator "-" (Library.onNumber "-" Context.minus)) 1
        [.constant 0 "1" (.ofNat 1)], .constant 2 "10000000000000000000000000001" (.ofNat (tenTo 28 + 1))]
    tenTo 28 + 1 < tenTo 34 ∧ (tenTo 28 + 1) % 2 = 1 ∧
      ∃ result last, power.force ⟨⟨34, .halfEven⟩, false, false, {}⟩ none (.ofEnvironment .empty) =
        (.ok (.ofDecimal result), last) ∧ result.value ≠ (-1) ^ (tenTo 28 + 1) := by
  intro power
  have hodd : (tenTo 28 + 1) % 2 = 1 := by decide
  refine ⟨by decide, hodd, .one, _, rfl, ?_⟩
  rw [(Nat.odd_iff.mpr hodd).neg_one_pow, Decimal.one, Decimal.value_ofNat]
  norm_num

end Formula
