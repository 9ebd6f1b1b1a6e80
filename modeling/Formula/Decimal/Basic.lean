import Formula.Magnitude

/-! # Decimal numbers

A decimal is a sign, a coefficient and a power of ten. Trailing zeros belong to it: `2.50` and `2.5`
are two decimals of one value, and zero keeps its sign and exponent. The order compares values only.
-/
namespace Formula

def digitCountBelow : (k n : Nat) → Nat
  | 0, _ => 1
  | k + 1, n =>
    if n < tenTo (twoTo k) then digitCountBelow k n
    else digitCountBelow k (n / tenTo (twoTo k)) + twoTo k

/-- How many digits a number is written with. Zero is written with one. No number has more decimal
digits than binary ones. -/
def digitCount (n : Nat) : Nat := digitCountBelow (Nat.log2 (Nat.log2 n) + 1) n

/-- The number `± coefficient * 10 ^ exponent`. -/
structure Decimal where
  negative : Bool
  coefficient : Nat
  exponent : Int
deriving DecidableEq, Inhabited

namespace Decimal

def ofNat (n : Nat) : Decimal := ⟨false, n, 0⟩

def ofInt (n : Int) : Decimal := ⟨decide (n < 0), n.natAbs, 0⟩

def zero : Decimal := ofNat 0

def one : Decimal := ofNat 1

def isZero (d : Decimal) : Bool := d.coefficient == 0

def digits (d : Decimal) : Nat := digitCount d.coefficient

def adjusted (d : Decimal) : Int := d.exponent + digitCount d.coefficient - 1

def negate (d : Decimal) : Decimal := { d with negative := !d.negative }

def magnitude (d : Decimal) : Decimal := { d with negative := false }

/-- The coefficient after `k` zeros are written behind it. Zero stays as it is, however large `k`. -/
def padded (coefficient k : Nat) : Nat :=
  if coefficient = 0 then 0 else coefficient * tenTo k

def coefficientAt (d : Decimal) (exponent : Int) : Nat :=
  padded d.coefficient (d.exponent - exponent).toNat

/-- Magnitudes of two nonzero decimals. Leading digits decide first, so coefficients are aligned only
when the numbers are within a factor of ten of each other. -/
def compareMagnitude (a b : Decimal) : Ordering :=
  match Ord.compare a.adjusted b.adjusted with
  | .eq =>
    let low := min a.exponent b.exponent
    Ord.compare (a.coefficientAt low) (b.coefficientAt low)
  | o => o

def compare (a b : Decimal) : Ordering :=
  if a.isZero then
    if b.isZero then .eq else if b.negative then .gt else .lt
  else if b.isZero then
    if a.negative then .lt else .gt
  else
    match a.negative, b.negative with
    | false, false => compareMagnitude a b
    | false, true => .gt
    | true, false => .lt
    | true, true => compareMagnitude b a

def isBelowZero (d : Decimal) : Bool := d.negative && !d.isZero

def wholeMagnitude (d : Decimal) : Nat :=
  if 0 ≤ d.exponent then padded d.coefficient d.exponent.toNat
  else if d.digits ≤ (-d.exponent).toNat then 0
  else d.coefficient / tenTo (-d.exponent).toNat

def truncate (d : Decimal) : Int :=
  if d.negative then -(d.wholeMagnitude : Int) else d.wholeMagnitude

def isIntegral (d : Decimal) : Bool :=
  d.isZero || 0 ≤ d.exponent ||
    (decide ((-d.exponent).toNat < d.digits) && d.coefficient % tenTo (-d.exponent).toNat == 0)

/-- The whole part, one further from zero when `away` holds and a fraction was dropped. A decimal
without a fraction part is left as it is written. -/
def towardInteger (d : Decimal) (away : Bool) : Decimal :=
  if 0 ≤ d.exponent then d
  else
    let whole := d.wholeMagnitude
    { d with coefficient := if away && !d.isIntegral then whole + 1 else whole, exponent := 0 }

def floor (d : Decimal) : Decimal := d.towardInteger d.negative

def ceiling (d : Decimal) : Decimal := d.towardInteger (!d.negative)

end Decimal

end Formula
