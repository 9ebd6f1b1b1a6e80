import Formula.Decimal.Context

/-! # Decimal arithmetic

Each operation has an exact result, which its context rounds once. Sums and quotients stand in short
numbers for long ones where the rounding cannot tell them apart. The exponent of an exact result is
part of it: sums take the lower exponent, products add exponents, quotients come as close to the
difference of the exponents as the value allows.
-/
namespace Formula.Context

/-- The exact sum. A sum of zero with unlike signs is negative only when rounding goes downward. -/
def exactSum (c : Context) (a b : Decimal) : Decimal :=
  let low := min a.exponent b.exponent
  let x := a.coefficientAt low
  let y := b.coefficientAt low
  if a.negative = b.negative then ⟨a.negative, x + y, low⟩
  else if x = y then ⟨c.rounding == .floor, 0, low⟩
  else if y < x then ⟨a.negative, x - y, low⟩
  else ⟨b.negative, y - x, low⟩

/-- A summand so far below the last digit that `large` keeps that only its sign matters is replaced by
a single digit just below that place. -/
def standIn (c : Context) (large small : Decimal) : Decimal :=
  let place := large.exponent - 1 - (c.precision + 1 - large.digits : Nat)
  if large.isZero || decide (place ≤ small.adjusted) then small
  else ⟨small.negative, if small.isZero then 0 else 1, place⟩

def add (c : Context) (a b : Decimal) : Except Signal Decimal :=
  if a.exponent < b.exponent then c.round (c.exactSum (c.standIn b a) b)
  else c.round (c.exactSum a (c.standIn a b))

def subtract (c : Context) (a b : Decimal) : Except Signal Decimal :=
  c.add a b.negate

def multiply (c : Context) (a b : Decimal) : Except Signal Decimal :=
  c.round ⟨a.negative ^^ b.negative, a.coefficient * b.coefficient, a.exponent + b.exponent⟩

def stripZeros : (limit n : Nat) → Nat × Nat
  | 0, n => (n, 0)
  | limit + 1, n =>
    if n % 10 = 0 then
      let (stripped, taken) := stripZeros limit (n / 10)
      (stripped, taken + 1)
    else (n, 0)

/-- Enough digits are computed to round; one more digit records that a remainder was left. -/
def divide (c : Context) (a b : Decimal) : Except Signal Decimal :=
  let negative := a.negative ^^ b.negative
  let ideal := a.exponent - b.exponent
  if b.isZero then .error (if a.isZero then .undefined else .divisionByZero)
  else if a.isZero then c.round ⟨negative, 0, ideal⟩
  else
    let shift : Int := (b.digits : Int) - a.digits + c.precision + 1
    let dividend := a.coefficient * tenTo shift.toNat
    let divisor := b.coefficient * tenTo (-shift).toNat
    let quotient := dividend / divisor
    if dividend % divisor = 0 then
      let (stripped, taken) := stripZeros shift.toNat quotient
      c.round ⟨negative, stripped, ideal - shift + taken⟩
    else c.round ⟨negative, quotient * 10 + 1, ideal - shift - 1⟩

/-- What is left of `a` after the whole quotient, with the sign of `a`. A quotient longer than the
precision is refused. -/
def remainder (c : Context) (a b : Decimal) : Except Signal Decimal :=
  let low := min a.exponent b.exponent
  if b.isZero then .error .undefined
  else if a.isZero then c.round ⟨a.negative, 0, low⟩
  else if a.adjusted < b.adjusted then c.round ⟨a.negative, a.coefficientAt low, low⟩
  else if (c.precision : Int) < a.adjusted - b.adjusted then .error .undefined
  else
    let x := a.coefficientAt low
    let y := b.coefficientAt low
    if c.precision < digitCount (x / y) then .error .undefined
    else c.round ⟨a.negative, x % y, low⟩

def plus (c : Context) (d : Decimal) : Except Signal Decimal :=
  c.round (if d.isZero && c.rounding != .floor then d.magnitude else d)

def minus (c : Context) (d : Decimal) : Except Signal Decimal :=
  c.round (if d.isZero && c.rounding != .floor then d.magnitude else d.negate)

def abs (c : Context) (d : Decimal) : Except Signal Decimal :=
  if d.negative then c.minus d else c.plus d

/-- The multiple of `10 ^ exponent` nearest to `d`, if it fits the context. -/
def quantize (c : Context) (d : Decimal) (exponent : Int) : Except Signal Decimal :=
  if maxExponent < exponent ∨ exponent < c.lastPlace then .error .undefined
  else if d.isZero then c.round ⟨d.negative, 0, exponent⟩
  else
    let gained := d.exponent - exponent
    if (c.precision : Int) < d.digits + gained then .error .undefined
    else
      let coefficient :=
        if 0 ≤ gained then d.coefficient * tenTo gained.toNat
        else c.rounding.dropDigits d.negative d.coefficient (-gained).toNat
      let result : Decimal := ⟨d.negative, coefficient, exponent⟩
      if c.precision < result.digits ∨ maxExponent < result.adjusted then .error .undefined
      else c.round result

/-- The number `d * 10 ^ n`. Shifts beyond twice the range are refused. -/
def scale (c : Context) (d : Decimal) (n : Int) : Except Signal Decimal :=
  if 2 * (maxExponent + c.precision) < n.natAbs then .error .undefined
  else c.round { d with exponent := d.exponent + n }

end Formula.Context
