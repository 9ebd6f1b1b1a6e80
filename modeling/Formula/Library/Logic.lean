import Formula.Library.Arguments
import Formula.Value.Order

/-! # Comparison and logic of the standard library

Comparisons follow the order of values. Conjunction and disjunction force their right operand only if
the left one leaves the answer open.
-/
namespace Formula.Library

def comparison (accepts : Ordering → Bool) : Settings → List Value → Plan :=
  binary fun _ a b => .done (.ofBool (accepts (a.compare b)))

/-- Under the legacy rule inequality answers as equality does. -/
def inequality : Settings → List Value → Plan :=
  binary fun settings a b =>
    let equal := a.compare b == .eq
    .done (.ofBool (if settings.legacyInequality then equal else !equal))

def negation : Settings → List Value → Plan :=
  unary fun _ value => .done (.ofBool !value.truth)

def conjunction : Settings → Nat → Plan :=
  deferred 2 fun _ =>
    .force 0 fun a =>
      if a.truth then .force 1 fun b => .done (.ofBool b.truth) else .done (.ofBool false)

def disjunction : Settings → Nat → Plan :=
  deferred 2 fun _ =>
    .force 0 fun a =>
      if a.truth then .done (.ofBool true) else .force 1 fun b => .done (.ofBool b.truth)

end Formula.Library
