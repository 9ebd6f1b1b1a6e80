import Formula.Library.Arithmetic
import Formula.Library.Assignment
import Formula.Library.Collection
import Formula.Library.Control
import Formula.Library.Elementary
import Formula.Library.Logic

/-! # The standard library

The operators, functions and constants that a registry starts with.
-/
namespace Formula.Library

def binaryOperator (symbol : String) (precedence : Int) (leftAssociative : Bool)
    (plan : Settings → List Value → Plan) : Operator :=
  { symbol, precedence, leftAssociative, behaviour := .eager plan }

def lazyOperator (symbol : String) (precedence : Int) (leftAssociative promisesLeft : Bool)
    (plan : Settings → Nat → Plan) : Operator :=
  { symbol, precedence, leftAssociative, behaviour := .lazy plan, promisesLeft }

def unaryOperator (symbol : String) (plan : Settings → List Value → Plan) : Operator :=
  { symbol, precedence := Registry.unaryPrecedence, leftAssociative := false,
    behaviour := .eager plan, unary := true }

def operators : List Operator :=
  [lazyOperator ";" 1 true true sequence,
   binaryOperator "=" 2 false assignment,
   lazyOperator "||" 3 false false disjunction,
   lazyOperator "&&" 4 false false conjunction,
   binaryOperator "==" 7 false (comparison (· == .eq)),
   binaryOperator "!=" 7 false inequality,
   binaryOperator "<>" 7 false swap,
   binaryOperator ">" 10 false (comparison (· == .gt)),
   binaryOperator ">=" 10 false (comparison (· != .lt)),
   binaryOperator "<" 10 false (comparison (· == .lt)),
   binaryOperator "<=" 10 false (comparison (· != .gt)),
   binaryOperator "+" 20 true (onNumbers "+" Context.add),
   binaryOperator "-" 20 true (onNumbers "-" Context.subtract),
   binaryOperator "*" 30 true (onNumbers "*" Context.multiply),
   binaryOperator "/" 30 true (onNumbers "/" Context.divide),
   binaryOperator "%" 30 true (onNumbers "%" Context.remainder),
   binaryOperator "^" 40 false powerPlan,
   unaryOperator "-" (onNumber "-" Context.minus),
   unaryOperator "+" positivePlan]

def eagerFunction (name : String) (arity : Int) (plan : Settings → List Value → Plan) : Function :=
  ⟨name, arity, .eager plan⟩

def lazyFunction (name : String) (arity : Int) (plan : Settings → Nat → Plan) : Function :=
  ⟨name, arity, .lazy plan⟩

def functions : List Function :=
  [eagerFunction "not" 1 negation,
   eagerFunction "fact" 1 factorialPlan,
   eagerFunction "abs" 1 (onNumber "abs" Context.abs),
   eagerFunction "round" 2 roundPlan,
   eagerFunction "floor" 1 floorPlan,
   eagerFunction "ceil" 1 ceilingPlan,
   eagerFunction "relu" 1 rectifyPlan,
   eagerFunction "max" Function.variadicArity maximum,
   eagerFunction "min" Function.variadicArity minimum,
   eagerFunction "list" Function.variadicArity listOf,
   eagerFunction "len" 1 length,
   eagerFunction "print" 1 print,
   lazyFunction "if" 3 choice,
   lazyFunction "loop" 2 loop,
   lazyFunction "map" 2 mapPlan,
   lazyFunction "for" 2 forPlan,
   lazyFunction "while" 3 whilePlan,
   lazyFunction "reduce" 3 reduce,
   lazyFunction "case" Function.variadicArity caseOf,
   eagerFunction "rand" 1 drawPlan] ++
  floatFunctions.map fun (name, arity, f) => eagerFunction name arity (lifted name f)

def pi : Decimal :=
  ⟨false, 31415926535897932384626433832795028841971693993751058209749445923078164062862089986280348253421170679,
    -100⟩

def e : Decimal :=
  ⟨false, 271828182845904523536028747135266249775724709369995957496696762772407663, -71⟩

def constants : List (String × Value) :=
  [("PI", .ofDecimal pi),
   ("e", .ofDecimal e),
   ("TRUE", .ofBool true),
   ("FALSE", .ofBool false),
   ("NULL", .null none)]

end Formula.Library

namespace Formula.Registry

def standard : Registry where
  operators := ⟨Library.operators.map fun op => (op.key, op)⟩
  functions := ⟨Library.functions.map fun f => (f.name, f)⟩
  constants := ⟨Library.constants⟩

theorem mem_of_operator?_standard {surface : String} {op : Operator}
    (h : standard.operator? surface = some op) : surface = op.key ∧ op ∈ Library.operators := by
  obtain ⟨other, hmem, heq⟩ := List.mem_map.mp (Table.mem_of_get? h)
  obtain ⟨hkey, rfl⟩ := Prod.mk.inj heq
  exact ⟨hkey.symm, hmem⟩

theorem mem_of_function?_standard {name : String} {f : Function}
    (h : standard.function? name = some f) : f ∈ Library.functions := by
  obtain ⟨other, hmem, heq⟩ := List.mem_map.mp (Table.mem_of_get? h)
  obtain ⟨-, rfl⟩ := Prod.mk.inj heq
  exact hmem

end Formula.Registry
