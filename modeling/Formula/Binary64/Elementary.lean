import Formula.Binary64.Basic

/-! # Elementary functions on doubles

Each function either has a value or says why not: the argument lies outside its domain, the result
would be too large, or a divisor is zero. Infinite arguments are allowed where a limit exists. Angles
are in degrees.
-/
namespace Formula.Binary64

inductive Fault where
  | domain
  | range
  | divisionByZero
  | areaTangent
deriving DecidableEq

abbrev Result := Except Fault Float

def inDomain (f : Float → Float) (x : Float) : Result :=
  let y := f x
  if (y.isNaN && !x.isNaN) || (y.isInf && x.isFinite) then .error .domain else .ok y

def inRange (f : Float → Float) (x : Float) : Result :=
  let y := f x
  if y.isNaN && !x.isNaN then .error .domain
  else if y.isInf && x.isFinite then .error .range
  else .ok y

def pi : Float := 3.141592653589793

def radians (x : Float) : Float := x * (pi / 180)

def degrees (x : Float) : Float := x * (180 / pi)

def divide (x y : Float) : Result := if y == 0 then .error .divisionByZero else .ok (x / y)

def sine (x : Float) : Result := inDomain Float.sin (radians x)

def cosine (x : Float) : Result := inDomain Float.cos (radians x)

def tangent (x : Float) : Result := inDomain Float.tan (radians x)

def arcSine (x : Float) : Result := degrees <$> inDomain Float.asin x

def arcCosine (x : Float) : Result := degrees <$> inDomain Float.acos x

def arcTangent (x : Float) : Result := degrees <$> inDomain Float.atan x

def angle (y x : Float) : Float := degrees (Float.atan2 y x)

def hyperbolicSine (x : Float) : Result := inRange Float.sinh x

def hyperbolicCosine (x : Float) : Result := inRange Float.cosh x

def hyperbolicTangent (x : Float) : Result := inDomain Float.tanh x

def reciprocal (f : Float → Result) (x : Float) : Result := do divide 1 (← f x)

def logarithm (x : Float) : Result :=
  if x ≤ 0 then .error .domain else .ok (Float.log x)

def commonLogarithm (x : Float) : Result :=
  if x ≤ 0 then .error .domain else .ok (Float.log10 x)

def squareRoot (x : Float) : Result := inDomain Float.sqrt x

def areaSine (x : Float) : Result := do logarithm (x + (← squareRoot (x * x + 1)))

def areaCosine (x : Float) : Result := do logarithm (x + (← squareRoot (x * x - 1)))

def areaTangent (x : Float) : Result :=
  if 1 ≤ x.abs then .error .areaTangent
  else do return 0.5 * (← logarithm (← divide (1 + x) (1 - x)))

/-- The power `x ^ y`. A power of zero that would be infinite lies outside the domain, any other is too large. -/
def power (x y : Float) : Result :=
  let z := Float.pow x y
  if !(x.isFinite && y.isFinite) then .ok z
  else if z.isNaN then .error .domain
  else if z.isInf then .error (if x == 0 then .domain else .range)
  else .ok z

/-- The double nearest to the length of the hypotenuse, by the integer square root of the exact sum of
squares. -/
def hypotenuse (x y : Float) : Float :=
  match decode x, decode y with
  | .finite _ m e, .finite _ n f =>
    let low := min e f
    let width := m * twoTo (e - low).toNat
    let height := n * twoTo (f - low).toNat
    let sum := width * width + height * height
    let widened := sum * twoTo 128
    let root := squareRootOf widened
    let marked := 2 * root + (if root * root = widened then 0 else 1)
    ofRatio false (marked * twoTo low.toNat) (twoTo (65 + (-low).toNat))
  | .infinite _, _ | _, .infinite _ => infinity false
  | _, _ => x + y
where
  /-- One bit of the root for every two bits of `n`, from the top. -/
  rootBits (n : Nat) : (bits : Nat) → (root : Nat) → Nat
    | 0, root => root
    | bit + 1, root =>
      let larger := root + twoTo bit
      rootBits n bit (if larger * larger ≤ n then larger else root)
  squareRootOf (n : Nat) : Nat := rootBits n (n.log2 / 2 + 1) 0

def highWord (x : Float) : Nat := x.toBits.toNat / twoTo 32

def withHighWord (x : Float) (high : Nat) : Float :=
  Float.ofBits (UInt64.ofNat (high * twoTo 32 + x.toBits.toNat % twoTo 32))

def logarithmSeries (f c k : Float) : Float :=
  let half := 0.5 * f * f
  let s := f / (2 + f)
  let z := s * s
  let z2 := z * z
  let z4 := z2 * z2
  let r1 := z * 6.666666666666735130e-01
  let r2 := 3.999999999940941908e-01 + z * 2.857142874366239149e-01
  let r3 := 2.222219843214978396e-01 + z * 1.818357216161805012e-01
  let r4 := 1.531383769920937332e-01 + z * 1.479819860511658591e-01
  let r := r1 + z2 * r2 + z4 * r3 + z4 * z2 * r4
  if k == 0 then f - (half - s * (half + r))
  else
    k * 6.93147180369123816490e-01 -
      ((half - (s * (half + r) + (k * 1.90821492927058770002e-10 + c))) - f)

def logarithmOfSuccessor (x : Float) : Float :=
  if x.abs < Float.scaleB 1 (-54) then x
  else if x.abs < Float.scaleB 1 (-29) then x - x * x * 0.5
  else if -Float.ofBits 0x3fd2bec400000000 < x && x < Float.ofBits 0x3fda827a00000000 then
    logarithmSeries x 0 0
  else
    let sum := 1 + x
    let large := 9007199254740992.0 ≤ x
    let u := if large then x else sum
    let exponent : Nat := highWord u / twoTo 20
    let lost := if large then 0
      else (if 1023 < exponent then 1 - (sum - x) else x - (sum - 1)) / sum
    let fraction := highWord u % twoTo 20
    if fraction < 0x6a09e then
      logarithmSeries (withHighWord u (fraction + 1023 * twoTo 20) - 1) lost
        (Float.ofInt ((exponent : Int) - 1023))
    else
      logarithmSeries (withHighWord u (fraction + 1022 * twoTo 20) - 1) lost
        (Float.ofInt ((exponent : Int) - 1022))

def naturalLogarithmPlusOne (x : Float) : Result :=
  if x ≤ -1 then .error .domain
  else if x.isNaN || x.isInf then .ok x
  else .ok (logarithmOfSuccessor x)

end Formula.Binary64
