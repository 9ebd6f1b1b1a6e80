import Formula.Environment

/-! # The state of an evaluation

Evaluating reads and writes an environment, counts how often each node of the tree was forced, and
leaves a trail of lines for the host. Functions of the host keep what they remember in a table of their
own, which expressions do not see.
-/
namespace Formula

/-- A line that an evaluation leaves: for the log, for printing, or as the trace of a call. -/
inductive Event where
  | log (line : String)
  | print (line : String)
  | call (name : String) (arguments : Nat)
deriving DecidableEq

def Event.trace? : Event → Option String
  | .call name arguments => some ("[DBG] call " ++ name ++ " argc " ++ toString arguments)
  | .log _ | .print _ => none

structure State where
  environment : Environment
  memory : Table Value
  forces : Array Nat
  /-- The lines so far, the latest first. -/
  trail : List Event
deriving Inhabited

namespace State

def ofEnvironment (environment : Environment) : State := ⟨environment, .empty, #[], []⟩

def events (state : State) : List Event := state.trail.reverse

def leave (state : State) (event : Event) : State := { state with trail := event :: state.trail }

def forcesOf (state : State) (node : Nat) : Nat := state.forces.getD node 0

def countForce (state : State) (node : Nat) : State :=
  { state with forces := state.forces.modify node (· + 1) }

def resetForces (state : State) (node : Nat) : State :=
  { state with forces := state.forces.modify node fun _ => 0 }

end State

end Formula
