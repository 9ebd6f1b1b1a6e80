import Formula.Sample.Behaviour

/-! # A sample library

A constant, three functions, a comparison operator, an operator for defaults and a unary operator.
-/
namespace Formula.Sample

def extras : List Registration :=
  [.binary "<=>" 7 true comparison,
   .function "double" 1 (Library.onNumber "double" fun context number => context.multiply number (.ofNat 2)),
   .unary "!" Library.negation,
   .lazyBinary "??" 3 true false (Library.deferred 2 fun _ => either),
   .lazyFunction "second" 2 (Library.deferred 2 fun _ => .operand 1),
   .float "sumsq" 2 squares,
   .constant "ANSWER" (.ofNat 42)]

end Formula.Sample
