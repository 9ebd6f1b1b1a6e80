import Formula.Plan
import Formula.Text.Numeric
import Formula.Text.Blank
import Formula.Text.Lowercase

/-! # Operators, functions and their registry

A registry maps operator symbols and function names to behaviours. Eager behaviours see the values of
their operands; lazy ones see how many operands there are and decide which to force. Binary and unary
operators of one symbol are two entries. Names of functions do not distinguish case.
-/
namespace Formula

/-- What the machine brings to an evaluation. -/
structure Machine where
  /-- How many frames its stack holds; no bound if absent. -/
  frames : Option Nat := none
  /-- The part of its argument that a draw gives. -/
  draw : Float := 0.5
deriving Inhabited

/-- What behaviours know of the expression they run in. -/
structure Settings where
  context : Context
  legacyInequality : Bool := false
  traced : Bool := false
  machine : Machine := {}
deriving Inhabited

inductive Behaviour where
  | eager (plan : Settings → List Value → Plan)
  | lazy (plan : Settings → (operands : Nat) → Plan)

namespace Behaviour

def isLazy : Behaviour → Bool
  | .eager _ => false
  | .lazy _ => true

end Behaviour

def unaryMark : String := "u"

structure Operator where
  symbol : String
  precedence : Int
  leftAssociative : Bool
  behaviour : Behaviour
  unary : Bool := false
  /-- Promises that a lazy behaviour forces its left operand once before anything else. -/
  promisesLeft : Bool := false

namespace Operator

def leftFirst (op : Operator) : Bool := op.promisesLeft || !op.behaviour.isLazy

/-- Runs of this operator may be evaluated from left to right without nesting. -/
def chainable (op : Operator) : Bool := !op.unary && op.leftAssociative && op.leftFirst

/-- The key of the operator in a registry, which is also its token's text. -/
def key (op : Operator) : String := if op.unary then op.symbol ++ unaryMark else op.symbol

def spelled (op : Operator) : String :=
  let kind := if op.unary then "unary" else if op.behaviour.isLazy then "lazy" else "eager"
  "<Operator " ++ Text.quoted op.symbol ++ " " ++ kind ++ " prec=" ++ toString op.precedence ++ ">"

end Operator

structure Function where
  name : String
  /-- The number of arguments; minus one stands for any number. -/
  arity : Int
  behaviour : Behaviour

namespace Function

def variadicArity : Int := -1

def variadic (f : Function) : Bool := f.arity == variadicArity

def spelled (f : Function) : String :=
  let arity := if f.variadic then "*" else toString f.arity
  "<Function " ++ f.name ++ "/" ++ arity ++ (if f.behaviour.isLazy then " lazy" else "") ++ ">"

end Function

structure Registry where
  operators : Table Operator := .empty
  functions : Table Function := .empty
  constants : Table Value := .empty
  frozen : Bool := false
deriving Inhabited

namespace Registry

def isSymbolChar (c : Char) : Bool :=
  !(Text.isAlphanumeric c || c == '_' || Text.isBlank c || c == '(' || c == ')' || c == ',' || c == '\'')

def isSymbol (symbol : String) : Bool := !symbol.isEmpty && symbol.toList.all isSymbolChar

def isNameStart (c : Char) : Bool := Text.isLetter c || c == '_'

def isNameChar (c : Char) : Bool := Text.isAlphanumeric c || c == '_'

def isName (name : String) : Bool :=
  match name.toList with
  | [] => false
  | c :: cs => isNameStart c && (c :: cs).all isNameChar

def addOperator (registry : Registry) (op : Operator) : Except Failure Registry :=
  if registry.frozen then .error (.of .frozen)
  else if !isSymbol op.symbol then .error (.of (.invalidSymbol op.symbol))
  else .ok { registry with operators := registry.operators.insert op.key op }

def addBinary (registry : Registry) (symbol : String) (precedence : Int) (leftAssociative : Bool)
    (plan : Settings → List Value → Plan) : Except Failure Registry :=
  registry.addOperator { symbol, precedence, leftAssociative, behaviour := .eager plan }

def addLazyBinary (registry : Registry) (symbol : String) (precedence : Int) (leftAssociative : Bool)
    (plan : Settings → Nat → Plan) (promisesLeft : Bool) : Except Failure Registry :=
  registry.addOperator { symbol, precedence, leftAssociative, behaviour := .lazy plan, promisesLeft }

def unaryPrecedence : Int := 60

def addUnary (registry : Registry) (symbol : String) (plan : Settings → List Value → Plan) :
    Except Failure Registry :=
  registry.addOperator
    { symbol, precedence := unaryPrecedence, leftAssociative := false, behaviour := .eager plan,
      unary := true }

def addBehaviour (registry : Registry) (name : String) (arity : Int) (behaviour : Behaviour) :
    Except Failure Registry :=
  if registry.frozen then .error (.of .frozen)
  else if !isName name then .error (.of (.invalidName name))
  else
    let key := Text.lower name
    .ok { registry with functions := registry.functions.insert key ⟨key, arity, behaviour⟩ }

def addFunction (registry : Registry) (name : String) (arity : Int)
    (plan : Settings → List Value → Plan) : Except Failure Registry :=
  registry.addBehaviour name arity (.eager plan)

def addLazyFunction (registry : Registry) (name : String) (arity : Int)
    (plan : Settings → Nat → Plan) : Except Failure Registry :=
  registry.addBehaviour name arity (.lazy plan)

def addConstant (registry : Registry) (name : String) (value : Value) : Except Failure Registry :=
  if registry.frozen then .error (.of .frozen)
  else .ok { registry with constants := registry.constants.insert name value }

def freeze (registry : Registry) : Registry := { registry with frozen := true }

def copy (registry : Registry) : Registry := { registry with frozen := false }

def operator? (registry : Registry) (surface : String) : Option Operator :=
  registry.operators.get? surface

def function? (registry : Registry) (name : String) : Option Function :=
  registry.functions.get? (Text.lower name)

def hasSymbol (registry : Registry) (text : String) : Bool :=
  registry.operators.contains text || registry.operators.contains (text ++ unaryMark)

def spelled (registry : Registry) : String :=
  "<Registry operators=" ++ toString registry.operators.size ++
    " functions=" ++ toString registry.functions.size ++ ">"

end Registry

end Formula
