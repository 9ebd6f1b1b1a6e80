import Formula.Library.Standard

/-! # Registrations

A registration asks for one entry of a registry. A library is a list of registrations, which are made
in order.
-/
namespace Formula

inductive Registration where
  | binary (symbol : String) (precedence : Int) (leftAssociative : Bool)
    (plan : Settings → List Value → Plan)
  | lazyBinary (symbol : String) (precedence : Int) (leftAssociative promisesLeft : Bool)
    (plan : Settings → Nat → Plan)
  | unary (symbol : String) (plan : Settings → List Value → Plan)
  | function (name : String) (arity : Int) (plan : Settings → List Value → Plan)
  | lazyFunction (name : String) (arity : Int) (plan : Settings → Nat → Plan)
  | float (name : String) (arity : Int) (f : Library.FloatFunction)
  | constant (name : String) (value : Value)

namespace Registry

def register (registry : Registry) : Registration → Except Failure Registry
  | .binary symbol precedence leftAssociative plan =>
    registry.addBinary symbol precedence leftAssociative plan
  | .lazyBinary symbol precedence leftAssociative promisesLeft plan =>
    registry.addLazyBinary symbol precedence leftAssociative plan promisesLeft
  | .unary symbol plan => registry.addUnary symbol plan
  | .function name arity plan => registry.addFunction name arity plan
  | .lazyFunction name arity plan => registry.addLazyFunction name arity plan
  | .float name arity f => registry.addFunction name arity (Library.lifted name f)
  | .constant name value => registry.addConstant name value

/-- Makes registrations one after another up to the first that is refused. -/
def load (registry : Registry) : List Registration → Except Failure Registry
  | [] => .ok registry
  | registration :: rest => do (← registry.register registration).load rest

end Registry

end Formula
