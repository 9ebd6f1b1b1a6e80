import Formula.Library.Arguments

/-! # Elementary functions of the standard library

Functions on doubles under their names. Trigonometry works in degrees.
-/
namespace Formula.Library

open Binary64 FloatFunction

/-- A part of the argument, as it is drawn. -/
def drawPlan : Settings → List Value → Plan :=
  fun settings => lifted "rand" (one fun x => .ok (x * settings.machine.draw)) settings

def elementaryFunctions : List (String × (Float → Binary64.Result)) :=
  [("sin", sine),
   ("cos", cosine),
   ("tan", tangent),
   ("asin", arcSine),
   ("acos", arcCosine),
   ("atan", arcTangent),
   ("sinh", hyperbolicSine),
   ("cosh", hyperbolicCosine),
   ("tanh", hyperbolicTangent),
   ("sec", reciprocal cosine),
   ("csc", reciprocal sine),
   ("sech", reciprocal hyperbolicCosine),
   ("csch", reciprocal hyperbolicSine),
   ("cot", reciprocal tangent),
   ("acot", fun x => do arcTangent (← divide 1 x)),
   ("coth", reciprocal hyperbolicTangent),
   ("asinh", areaSine),
   ("acosh", areaCosine),
   ("atanh", areaTangent),
   ("rad", fun x => .ok (radians x)),
   ("deg", fun x => .ok (degrees x)),
   ("log", logarithm),
   ("log10", commonLogarithm),
   ("log1p", naturalLogarithmPlusOne),
   ("sqrt", squareRoot)]

def floatFunctions : List (String × Int × FloatFunction) :=
  ("atan2", 2, two fun y x => .ok (angle y x)) ::
    elementaryFunctions.map fun (name, f) => (name, 1, one f)

end Formula.Library
