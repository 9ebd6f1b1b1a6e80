import Formula.Decimal.Basic

/-! # Doubles as dyadic numbers

A finite double is `± mantissa * 2 ^ exponent` with a mantissa below `2 ^ 53`. Decoding and encoding go
through its bits, so that both sides are integers.
-/
namespace Formula.Binary64

def lowestExponent : Int := -1074

def highestExponent : Int := 971

inductive Parts where
  | finite (negative : Bool) (mantissa : Nat) (exponent : Int)
  | infinite (negative : Bool)
  | undefined
deriving DecidableEq

def decode (x : Float) : Parts :=
  let bits : Nat := x.toBits.toNat
  let negative := bits / twoTo 63 == 1
  let field : Nat := bits / twoTo 52 % twoTo 11
  let fraction : Nat := bits % twoTo 52
  if field = 2047 then if fraction = 0 then .infinite negative else .undefined
  else if field = 0 then .finite negative fraction lowestExponent
  else .finite negative (twoTo 52 + fraction) ((field : Int) - 1075)

def ofBits (negative : Bool) (bits : Nat) : Float :=
  Float.ofBits (UInt64.ofNat (if negative then twoTo 63 + bits else bits))

def infinity (negative : Bool) : Float := ofBits negative (2047 * twoTo 52)

/-- The double with this mantissa, which is below `2 ^ 53` and has its highest bit set unless the
exponent is the lowest one. Exponents above the range give an infinity. -/
def encode (negative : Bool) (mantissa : Nat) (exponent : Int) : Float :=
  if highestExponent < exponent then infinity negative
  else if mantissa < twoTo 52 then ofBits negative mantissa
  else ofBits negative ((exponent + 1075).toNat * twoTo 52 + (mantissa - twoTo 52))

def nearestQuotient (n divisor : Nat) : Nat :=
  let quotient := n / divisor
  let twice := 2 * (n % divisor)
  if divisor < twice ∨ (divisor = twice ∧ quotient % 2 = 1) then quotient + 1 else quotient

def ofRatio (negative : Bool) (numerator denominator : Nat) : Float :=
  if numerator = 0 then ofBits negative 0
  else
    let at53 (exponent : Int) : Nat × Nat :=
      (numerator * twoTo (-exponent).toNat, denominator * twoTo exponent.toNat)
    let guess := (numerator.log2 : Int) - denominator.log2 - 53
    let (n, d) := at53 guess
    let exponent := max lowestExponent (if n / d < twoTo 53 then guess else guess + 1)
    let (n, d) := at53 exponent
    let mantissa := nearestQuotient n d
    if mantissa < twoTo 53 then encode negative mantissa exponent
    else encode negative (mantissa / 2) (exponent + 1)

/-- The double nearest to a decimal; an infinity above the range. Decimals far outside the range of
doubles are told by their leading digit. -/
def ofDecimal (d : Decimal) : Float :=
  if d.isZero ∨ d.adjusted < -400 then ofBits d.negative 0
  else if 400 < d.adjusted then infinity d.negative
  else ofRatio d.negative (d.coefficient * tenTo d.exponent.toNat) (tenTo (-d.exponent).toNat)

end Formula.Binary64
