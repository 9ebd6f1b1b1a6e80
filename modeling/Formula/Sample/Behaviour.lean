import Formula.Registration
import Formula.Value.Order

/-! # Sample behaviours

Small behaviours under names, for trying out registrations. Each of them can be registered as eager or
as lazy. An eager behaviour that looks at its operands finds no values there when it is registered as
lazy; a lazy one that is registered as eager ends with a deferred operand instead of a value.
-/
namespace Formula.Sample

open Library

/-- What a behaviour does with values, and what it does with operands that are not forced. -/
structure Behaviour where
  eager : Settings → List Value → Plan
  lazy : Settings → Nat → Plan

def steady (plan : Plan) : Behaviour := ⟨fun _ _ => plan, fun _ _ => plan⟩

def eagerly (plan : Settings → List Value → Plan) : Behaviour :=
  ⟨plan, fun _ _ => .fail (.fault .missingMember)⟩

/-- As `eagerly`, with a plan that does not mind operands which are not forced. -/
def unseeing (plan : Settings → List Value → Plan) : Behaviour :=
  ⟨plan, fun _ _ => .stray "Value"⟩

def choosing (count index : Nat) : Behaviour where
  eager _ values :=
    if values.length = count then
      match values[index]? with
      | some value => .done value
      | none => mismatch
    else mismatch
  lazy := deferred count fun _ => .operand index

/-- What an eager behaviour sees of a deferred result. -/
def deferredKind : String := "LazyValue"

def lazily (count : Nat) (plan : Plan) : Behaviour where
  eager _ values := if values.length = count then .stray deferredKind else mismatch
  lazy := deferred count fun _ => plan

def seven : Value := .ofNat 7

def twice : Settings → List Value → Plan :=
  onNumber "twice" fun context number => context.multiply number (.ofNat 2)

def orderNumber : Ordering → Int
  | .lt => -1
  | .eq => 0
  | .gt => 1

def comparison : Settings → List Value → Plan :=
  binary fun _ a b => .done (.ofInt (orderNumber (a.compare b)))

def marker (name : String) : Value :=
  .host { kind := "Marker", text := "<" ++ name ++ ">", truth := name != "off" } none

def vector (x y : String) : Value :=
  .host { kind := "Vec", text := "(" ++ x ++ ", " ++ y ++ ")", truth := true } none

def join (text : String) : List Value → Plan
  | [] => .done (.text text none)
  | value :: values => .text value fun more => join (text ++ more) values

def countForces (counts : List Value) (index : Nat) : (left : Nat) → Plan
  | 0 => .done (.list counts.reverse none)
  | left + 1 => .countForces index fun n => countForces (.ofNat n :: counts) (index + 1) left

/-- Forces the first operand and lists how often each was forced. -/
def peek : Behaviour where
  eager _ values := .fail (.fault (if values.isEmpty then .missingItem else .missingMember))
  lazy _ count := .force 0 fun _ => countForces [] 0 count

def atEnd (last : Bool) : Behaviour where
  eager _ values :=
    match if last then values.getLast? else values.head? with
    | some value => .done value
    | none => .fail (.fault .missingItem)
  lazy _ count := .operand (if last then count - 1 else 0)

def either : Plan := .force 0 fun value => if value.truth then .done value else .force 1 .done

def behaviours : List (String × Behaviour) :=
  [("const7", ⟨fun _ _ => .done seven, fun _ _ => .stray "NumericValue"⟩),
   ("id", choosing 1 0),
   ("twice", eagerly twice),
   ("count", unseeing fun _ values => .done (.ofNat values.length)),
   ("pair", unseeing fun _ values => .done (.list values none)),
   ("cmp", eagerly comparison),
   ("notb", eagerly negation),
   ("left", choosing 2 0),
   ("right", choosing 2 1),
   ("join", eagerly fun _ values => join "" values),
   ("lookup", eagerly (unary fun _ value => .text value fun name => .read name .done)),
   ("raw", steady (.stray "int")),
   ("badvalue", steady (.fail (.invalid "bad value"))),
   ("emptyvalue", steady (.fail (.invalid ""))),
   ("evalerr", steady (.fail (.of (.reported "custom failure")))),
   ("evalerrat", steady (.fail (.at (.reported "custom failure") 1))),
   ("runtime", steady (.fail (.crashed "boom"))),
   ("marker", eagerly (unary fun _ value => .text value fun name => .done (marker name))),
   ("vec", eagerly (binary fun _ a b => .text a fun x => .text b fun y => .done (vector x y))),
   ("builtin_max",
     ⟨binary fun _ a b => .done (Value.greatest a [b]), fun _ _ => mismatch⟩),
   ("lfirst", atEnd false),
   ("llast", atEnd true),
   ("peek", peek),
   ("broken", ⟨peek.eager, fun _ _ => .force 0 fun value => .stray value.kind⟩),
   ("either_lazy", lazily 2 either),
   ("rightleft", lazily 2 (.force 1 fun _ => .force 0 .done)),
   ("then", lazily 2 (.force 0 fun _ => .force 1 .done))]

def logarithm : FloatFunction
  | [x] => some (Binary64.logarithm x)
  | [x, base] =>
    some do Binary64.divide (← Binary64.logarithm x) (← Binary64.logarithm base)
  | _ => none

def hypotenuse : FloatFunction
  | [] => some (.ok 0)
  | [x] => some (.ok x.abs)
  | [x, y] => some (.ok (Binary64.hypotenuse x y))
  | _ => none

def squares : FloatFunction := .two fun x y => .ok (x * x + y * y)

def always (x : Float) : FloatFunction := .one fun _ => .ok x

def floatFunctions : List (String × Int × FloatFunction) :=
  [("half", 1, .one fun x => .ok (x / 2)),
   ("sumsq", 2, squares),
   ("seven", 0, fun arguments => if arguments.isEmpty then some (.ok 7) else none),
   ("nan", 1, always (0 / 0)),
   ("inf", 1, always (1 / 0)),
   ("neginf", 1, always (-1 / 0)),
   ("mlog", 1, logarithm),
   ("mhypot", 1, hypotenuse)]

end Formula.Sample
