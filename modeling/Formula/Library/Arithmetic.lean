import Formula.Decimal.Power
import Formula.Library.Arguments

/-! # Arithmetic of the standard library

Sums, products, quotients and powers in the context of the expression, and the functions on single
numbers.
-/
namespace Formula.Library

def signalled {α : Type} (result : Except Signal α) : Except Failure α := result.mapError .numeric

/-- The power `base ^ exponent`. The exponent's magnitude is first taken in the standard context. Its
whole part is computed exactly, its fraction through doubles, and a negative exponent takes the
reciprocal. -/
def power (context : Context) (base exponent : Decimal) : Except Failure Decimal := do
  let size ← signalled (Context.standard.abs exponent)
  let fraction ← signalled (context.remainder size .one)
  let whole := (← signalled (context.subtract size fraction)).truncate.toNat
  let result ← if whole = 0 then pure Decimal.one else signalled (context.power base whole)
  let result ←
    if fraction.isZero then pure result
    else do
      let root ← (Binary64.power (Binary64.ofDecimal base) (Binary64.ofDecimal fraction)).mapError
        Failure.floating
      signalled (context.multiply result (← roundedFloat context root))
  if exponent.isBelowZero then signalled (context.divide .one result) else pure result

def powerPlan : Settings → List Value → Plan :=
  binary fun settings a b =>
    .number "^" a fun base =>
      .number "^" b fun exponent =>
        .attempt (power settings.context base exponent) fun result => .done (.ofDecimal result)

def factorialBound : Nat := 9223372036854775807

/-- The product of the `count` numbers after `first`. Halves are multiplied separately, so that long
numbers meet numbers as long. -/
def product (first count : Nat) : Nat :=
  if count ≤ 1 then if count = 0 then 1 else first + 1
  else product first (count / 2) * product (first + count / 2) (count - count / 2)
termination_by count
decreasing_by all_goals omega

def factorial (n : Nat) : Nat := product 0 n

def factorialPlan : Settings → List Value → Plan :=
  unary fun settings value =>
    .number "fact" value fun number =>
      let n := number.truncate.toNat
      if factorialBound < n then
        .fail (.tooLarge
          ("factorial() argument should not exceed " ++ toString factorialBound))
      else numeric (settings.context.round (.ofNat (factorial n)))

/-- Rounds to a number of places. The unit of the last place is formed in the standard context. -/
def roundPlan : Settings → List Value → Plan :=
  binary fun settings value places =>
    .number "round" places fun n =>
      .attempt (signalled (Context.standard.scale .one (-n.truncate))) fun unit =>
        .number "round" value fun number =>
          numeric (settings.context.quantize number unit.exponent)

def floorPlan : Settings → List Value → Plan :=
  onNumber "floor" fun _ number => .ok number.floor

def ceilingPlan : Settings → List Value → Plan :=
  onNumber "ceil" fun _ number => .ok number.ceiling

def rectifyPlan : Settings → List Value → Plan :=
  unary fun _ value =>
    .number "relu" value fun number => .done (if number.isBelowZero then .zero else value)

/-- A sign that changes nothing still asks for a number. -/
def positivePlan : Settings → List Value → Plan :=
  unary fun _ value => .number "+" value fun _ => .done value

end Formula.Library
