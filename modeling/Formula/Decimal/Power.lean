import Formula.Decimal.Arithmetic

/-! # Whole powers

A power is computed by repeated squaring in a context with enough extra digits, and rounded once at
the end. Powers of one keep the decimals that the exact product would have, as far as they fit.
-/
namespace Formula.Context

/-- The bits of the exponent from the second highest down: square for each, and multiply where it is
set. -/
def squareAndMultiply (c : Context) (base : Decimal) (n : Nat) : (bits : Nat) → Decimal →
    Except Signal Decimal
  | 0, acc => .ok acc
  | bit + 1, acc => do
    let squared ← c.multiply acc acc
    let next ← if n.testBit bit then c.multiply squared base else pure squared
    if next.isZero then pure next else squareAndMultiply c base n bit next

/-- A lower bound for the exponent of the leading digit of the logarithm of `x`, for a magnitude `x`
other than one. -/
def logarithmBound (x : Decimal) : Int :=
  let leading := x.adjusted
  if 0 < leading then (digitCount leading.natAbs : Int) - 1
  else if leading < -1 then (digitCount (leading + 1).natAbs : Int) - 1
  else
    let low := min x.exponent 0
    let distance : Decimal :=
      ⟨false, ((x.coefficientAt low : Int) - Decimal.one.coefficientAt low).natAbs, low⟩
    if leading = 0 then distance.adjusted - 2 else distance.adjusted - 1

/-- The power of a nonzero magnitude other than one is certainly outside the exponent range. -/
def powerLeavesRange (c : Context) (base : Decimal) (n : Nat) : Bool :=
  let bound := logarithmBound base.magnitude + ((digitCount n : Int) - 1)
  let range := if base.adjusted < 0 then c.lastPlace else maxExponent
  decide ((digitCount range.natAbs : Int) < bound)

def power (c : Context) (base : Decimal) (n : Nat) : Except Signal Decimal :=
  let negative := base.negative && n % 2 == 1
  if base.isZero then .ok ⟨negative, 0, 0⟩
  else if base.magnitude.compare .one == .eq then
    let places := min (n * (-base.exponent).toNat) (c.precision - 1)
    .ok ⟨negative, tenTo places, -places⟩
  else if c.powerLeavesRange base n then
    if base.adjusted < 0 then c.round ⟨negative, 1, c.lastPlace - 1⟩ else .error .overflow
  else do
    let wide : Context := ⟨c.precision + digitCount n + 2, .halfEven⟩
    let result ← wide.squareAndMultiply base n n.log2 base
    c.round { result with negative }

end Formula.Context
