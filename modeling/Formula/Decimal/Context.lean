import Formula.Decimal.Basic

/-! # Rounding to a context

A context keeps `precision` digits and exponents between `minExponent` and `maxExponent`. Results that
are too long are rounded, results that are too small lose digits down to the context's last place, and
results that are too large are refused.
-/
namespace Formula

/-- Which neighbour a number between two representable ones goes to. -/
inductive Rounding where
  | up
  | down
  | ceiling
  | floor
  | halfUp
  | halfDown
  | halfEven
  | zeroFiveUp
deriving DecidableEq, Inhabited

namespace Rounding

/-- Whether a quotient with a nonzero remainder moves one away from zero. -/
def goesAway (mode : Rounding) (negative : Bool) (quotient remainder divisor : Nat) : Bool :=
  match mode with
  | .up => true
  | .down => false
  | .ceiling => !negative
  | .floor => negative
  | .halfUp => decide (divisor ≤ 2 * remainder)
  | .halfDown => decide (divisor < 2 * remainder)
  | .halfEven => decide (divisor < 2 * remainder) || (2 * remainder == divisor && quotient % 2 == 1)
  | .zeroFiveUp => quotient % 5 == 0

def divide (mode : Rounding) (negative : Bool) (n divisor : Nat) : Nat :=
  let quotient := n / divisor
  let remainder := n % divisor
  if remainder ≠ 0 ∧ mode.goesAway negative quotient remainder divisor then quotient + 1 else quotient

/-- Drops the last `k` digits. Every `k` beyond the digits of `n` rounds alike: the number is then less
than half of the unit kept. -/
def dropDigits (mode : Rounding) (negative : Bool) (n k : Nat) : Nat :=
  mode.divide negative n (tenTo (min k (digitCount n + 1)))

end Rounding

inductive Signal where
  | divisionByZero
  | undefined
  | overflow
deriving DecidableEq, Inhabited

structure Context where
  precision : Nat
  rounding : Rounding
deriving DecidableEq, Inhabited

namespace Context

def minExponent : Int := -999999

def maxExponent : Int := 999999

def standard : Context := ⟨28, .halfEven⟩

def lastPlace (c : Context) : Int := minExponent - (c.precision - 1 : Nat)

def inRange (d : Decimal) : Except Signal Decimal :=
  if maxExponent < d.adjusted then .error .overflow else .ok d

/-- Rounds to the precision. A carry into a new digit drops the zero it leaves behind. -/
def toPrecision (c : Context) (d : Decimal) : Except Signal Decimal :=
  if d.digits ≤ c.precision then .ok d
  else
    let dropped := d.digits - c.precision
    let kept := c.rounding.dropDigits d.negative d.coefficient dropped
    if digitCount kept ≤ c.precision then .ok ⟨d.negative, kept, d.exponent + dropped⟩
    else inRange ⟨d.negative, kept / 10, d.exponent + dropped + 1⟩

def toLastPlace (c : Context) (d : Decimal) : Decimal :=
  if c.lastPlace ≤ d.exponent then d
  else
    let dropped := (c.lastPlace - d.exponent).toNat
    ⟨d.negative, c.rounding.dropDigits d.negative d.coefficient dropped, c.lastPlace⟩

def round (c : Context) (d : Decimal) : Except Signal Decimal :=
  if d.isZero then .ok { d with exponent := max c.lastPlace (min maxExponent d.exponent) }
  else if maxExponent < d.adjusted then .error .overflow
  else if d.adjusted < minExponent then .ok (c.toLastPlace d)
  else c.toPrecision d

end Context

end Formula
