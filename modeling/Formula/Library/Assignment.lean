import Formula.Library.Arguments

/-! # Assignment in the standard library

Assignments write to the name that a value is bound to.
-/
namespace Formula.Library

def assignment : Settings → List Value → Plan :=
  binary fun _ target value =>
    match target.binding with
    | none => .fail (.of .assignmentTarget)
    | some name => .bind name value .done

/-- Exchanges the values of two names and gives the new left one. -/
def swap : Settings → List Value → Plan :=
  binary fun _ left right =>
    match left.binding, right.binding with
    | some a, some b => .bind a right fun newLeft => .bind b left fun _ => .done newLeft
    | _, _ => .fail (.of .swapOperands)

end Formula.Library
