import Formula.Registry
import Formula.Binary64.Shortest

/-! # Plans for a given number of arguments

A behaviour says how many operands it takes. Given another number it fails without looking at them.
-/
namespace Formula.Library

def mismatch : Plan := .fail (.fault .wrongType)

def unary (plan : Settings → Value → Plan) : Settings → List Value → Plan
  | settings, [a] => plan settings a
  | _, _ => mismatch

def binary (plan : Settings → Value → Value → Plan) : Settings → List Value → Plan
  | settings, [a, b] => plan settings a b
  | _, _ => mismatch

def deferred (count : Nat) (plan : Settings → Plan) : Settings → Nat → Plan :=
  fun settings given => if given = count then plan settings else mismatch

def numeric (result : Except Signal Decimal) : Plan :=
  match result with
  | .ok number => .done (.ofDecimal number)
  | .error signal => .fail (.numeric signal)

def onNumber (place : String) (operation : Context → Decimal → Except Signal Decimal) :
    Settings → List Value → Plan :=
  unary fun settings value =>
    .number place value fun number => numeric (operation settings.context number)

def onNumbers (place : String) (operation : Context → Decimal → Decimal → Except Signal Decimal) :
    Settings → List Value → Plan :=
  binary fun settings a b =>
    .number place a fun x => .number place b fun y => numeric (operation settings.context x y)

abbrev FloatFunction := List Float → Option Binary64.Result

namespace FloatFunction

def one (f : Float → Binary64.Result) : FloatFunction
  | [x] => some (f x)
  | _ => none

def two (f : Float → Float → Binary64.Result) : FloatFunction
  | [x, y] => some (f x y)
  | _ => none

end FloatFunction

/-- The number that a double is written as, rounded. Doubles that are no numbers are refused. -/
def roundedFloat (context : Context) (x : Float) : Except Failure Decimal :=
  match Binary64.toDecimal? x with
  | none => .error (.of (.outOfRange (Binary64.text x)))
  | some number => (context.round number).mapError .numeric

/-- A function on doubles as a function on numbers: arguments become doubles, the result is read from
its shortest text. -/
def lifted (name : String) (f : FloatFunction) : Settings → List Value → Plan :=
  fun settings values =>
    .numbers name values fun numbers =>
      match f (numbers.map Binary64.ofDecimal) with
      | none => mismatch
      | some (.error fault) => .fail (.floating fault)
      | some (.ok x) => .attempt (roundedFloat settings.context x) fun number => .done (.ofDecimal number)

end Formula.Library
