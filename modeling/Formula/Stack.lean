/-! # The stack of an evaluation

Evaluations nest on a stack that may be bounded. A node takes one frame of it. What a behaviour does by
itself stands two frames further down, those of its call and of its plan; an operand that it hands on, or
that is forced for it, does not. Room is the number of frames that are left, without a bound if absent.
-/
namespace Formula

/-- One frame further down, unless the stack is full. -/
def deeper : Option Nat → Option (Option Nat)
  | none => some none
  | some 0 => none
  | some (room + 1) => some (some room)

/-- The room that a behaviour has for what it does by itself. -/
def inside (room : Option Nat) : Option Nat := room.map (· - 2)

@[simp] theorem inside_none : inside none = none := rfl

def fits (frames : Nat) (room : Option Nat) : Bool := room.all (frames ≤ ·)

end Formula
