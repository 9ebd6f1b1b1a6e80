import Formula.Binary64.Basic
import Formula.Decimal.Arithmetic
import Formula.Decimal.Text

/-! # The shortest decimal of a double

Of all decimals that read back as a double, the one with the fewest digits is written, and of those the
nearest. It stands positionally from one ten-thousandth up to sixteen digits before the point, always
with a fraction, and in exponent form outside.
-/
namespace Formula.Binary64

structure Interval where
  low : Nat
  value : Nat
  high : Nat
  denominator : Nat
  closed : Bool

/-- The reals that round to `mantissa * 2 ^ exponent`, in quarters of its last place. Below a power of
two the next double is only half as far away. The ends belong to an even mantissa. -/
def interval (mantissa : Nat) (exponent : Int) : Interval :=
  let quarters := exponent - 2
  let unit := twoTo quarters.toNat
  let below := if mantissa = twoTo 52 ∧ lowestExponent < exponent then 1 else 2
  { low := (4 * mantissa - below) * unit
    value := 4 * mantissa * unit
    high := (4 * mantissa + 2) * unit
    denominator := twoTo (-quarters).toNat
    closed := mantissa % 2 == 0 }

namespace Interval

def holds (i : Interval) (n : Nat) (place : Int) : Bool :=
  let scaled := n * tenTo place.toNat * i.denominator
  let unit := tenTo (-place).toNat
  if i.closed then decide (i.low * unit ≤ scaled) && decide (scaled ≤ i.high * unit)
  else decide (i.low * unit < scaled) && decide (scaled < i.high * unit)

def leading (i : Interval) : Int :=
  if i.denominator ≤ i.value then (digitCount (i.value / i.denominator) : Int) - 1
  else -(digitCount ((i.denominator + i.value - 1) / i.value - 1) : Int)

/-- The multiple of `10 ^ place` that lies in the interval next to its value, if one does: the nearer
of its two neighbours, at equal distance the even one. -/
def nearest? (i : Interval) (place : Int) : Option Nat :=
  let n := i.value * tenTo (-place).toNat
  let d := i.denominator * tenTo place.toNat
  let floor := n / d
  match i.holds floor place, i.holds (floor + 1) place with
  | true, true => some (nearestQuotient n d)
  | true, false => some floor
  | false, true => some (floor + 1)
  | false, false => none

def shortestFrom (i : Interval) : (rounds : Nat) → (digits : Nat) → Nat × Int
  | 0, _ => (0, 0)
  | rounds + 1, digits =>
    let place := i.leading - digits + 1
    match i.nearest? place with
    | some n => (n, place)
    | none => i.shortestFrom rounds (digits + 1)

end Interval

/-- The shortest decimal that reads back as `mantissa * 2 ^ exponent`, without trailing zeros. -/
def shortest (negative : Bool) (mantissa : Nat) (exponent : Int) : Decimal :=
  if mantissa = 0 then ⟨negative, 0, 0⟩
  else
    let (n, place) := (interval mantissa exponent).shortestFrom 17 1
    let (stripped, taken) := Context.stripZeros 17 n
    ⟨negative, stripped, place + taken⟩

def isPositional (d : Decimal) : Bool := decide (-4 ≤ d.adjusted) && decide (d.adjusted < 16)

/-- The decimal that the text of a double spells: in positional notation it has a fraction. -/
def notated (d : Decimal) : Decimal :=
  if isPositional d ∧ 0 ≤ d.exponent then
    { d with coefficient := d.coefficient * tenTo (d.exponent.toNat + 1), exponent := -1 }
  else d

def notatedChars (d : Decimal) : List Char :=
  let digits := Nat.toDigits 10 d.coefficient
  let unsigned :=
    if isPositional d then Decimal.pointed digits (-d.exponent).toNat
    else
      let power := Nat.toDigits 10 d.adjusted.natAbs
      Decimal.pointed digits (digits.length - 1) ++
        'e' :: (if d.adjusted < 0 then '-' else '+') :: (List.replicate (2 - power.length) '0' ++ power)
  if d.negative then '-' :: unsigned else unsigned

def toDecimal? (x : Float) : Option Decimal :=
  match decode x with
  | .finite negative mantissa exponent => some (notated (shortest negative mantissa exponent))
  | _ => none

def text (x : Float) : String :=
  match decode x with
  | .finite negative mantissa exponent =>
    String.ofList (notatedChars (notated (shortest negative mantissa exponent)))
  | .infinite negative => if negative then "-inf" else "inf"
  | .undefined => "nan"

end Formula.Binary64
