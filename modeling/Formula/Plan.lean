import Formula.Stack
import Formula.State

/-! # Plans

What an operator or function does is a plan: a tree of steps that force operands, read and bind names,
leave lines and compute in between. A plan that hands one of its operands on ends with it, and leaves its
own frames of the stack before. No step removes a name or puts an entry that computes under it. Nothing
happens before the plan is run, and a failure ends the run unless the plan catches it; a preserved name is
put back on the way out.
-/
namespace Formula

inductive Plan where
  | done (value : Value)
  /-- Hands an operand on, which is forced last. -/
  | operand (index : Nat)
  /-- Ends with something that is no value, of this kind. -/
  | stray (kind : String)
  | fail (failure : Failure)
  | force (index : Nat) (next : Value → Plan)
  | countForces (index : Nat) (next : Nat → Plan)
  | read (name : String) (next : Value → Plan)
  | bind (name : String) (value : Value) (next : Value → Plan)
  /-- Makes the text of a value, for which the stack must hold a call for each level of its lists. -/
  | text (value : Value) (next : String → Plan)
  | log (line : String) (next : Plan)
  | print (line : String) (next : Plan)
  | retrieve (name : String) (next : Option Value → Plan)
  | remember (name : String) (value : Value) (next : Plan)
  /-- Runs `body` and then puts the entries of `names` back as they were, also when it fails. -/
  | preserving (names : List String) (body : Plan) (next : Value → Plan)
  /-- Runs `body` and goes on with its value or its failure. -/
  | catching (body : Plan) (next : Except Failure Value → Plan)

/-- An operand that is not evaluated yet: how to force it with so much room, and how often that was done. -/
structure Operand where
  force : (room : Option Nat) → State → Except Failure Value × State
  forces : State → Nat

/-- How a plan ends: with a value, or with something else of the named kind. -/
inductive Reply where
  | value (value : Value)
  | stray (kind : String)

namespace Plan

def ofExcept : Except Failure Value → Plan
  | .ok value => .done value
  | .error failure => .fail failure

def attempt {α : Type} (result : Except Failure α) (next : α → Plan) : Plan :=
  match result with
  | .ok a => next a
  | .error failure => .fail failure

def refuse (value : Value) (cause : String → Cause) : Plan := .text value fun text => .fail (.of (cause text))

def number (place : String) (value : Value) (next : Decimal → Plan) : Plan :=
  match value with
  | .number amount _ _ => next amount
  | other => refuse other (.notANumber place other.kind)

def numbers (place : String) : List Value → (List Decimal → Plan) → Plan
  | [], next => next []
  | value :: values, next =>
    number place value fun first => numbers place values fun rest => next (first :: rest)

def items (place : String) (value : Value) (next : List Value → Plan) : Plan :=
  match value with
  | .list items _ => next items
  | other => refuse other (.notAList place)

/-- What the plan does on these operands, where the stack has so much room for the behaviour it belongs to. -/
def run (operands : List Operand) (room : Option Nat) : Plan → State → Except Failure Reply × State
  | .done value, state => (.ok (.value value), state)
  | .stray kind, state => (.ok (.stray kind), state)
  | .fail failure, state => (.error failure, state)
  | .operand index, state =>
    match operands[index]? with
    | none => (.error (.fault .missingItem), state)
    | some target =>
      match target.force room state with
      | (.ok value, state) => (.ok (.value value), state)
      | (.error failure, state) => (.error failure, state)
  | .force index next, state =>
    match operands[index]? with
    | none => (.error (.fault .missingItem), state)
    | some target =>
      match target.force (inside room) state with
      | (.ok value, state) => (next value).run operands room state
      | (.error failure, state) => (.error failure, state)
  | .countForces index next, state =>
    match operands[index]? with
    | none => (.error (.fault .missingItem), state)
    | some target => (next (target.forces state)).run operands room state
  | .read name next, ⟨environment, memory, forces, trail⟩ =>
    match environment.read name with
    | (.ok value, environment) => (next value).run operands room ⟨environment, memory, forces, trail⟩
    | (.error failure, environment) => (.error failure, ⟨environment, memory, forces, trail⟩)
  | .bind name value next, ⟨environment, memory, forces, trail⟩ =>
    (next (value.boundTo name)).run operands room ⟨environment.bind name value, memory, forces, trail⟩
  | .text value next, state =>
    if fits value.textFrames (inside room) then (next value.string).run operands room state
    else (.error .tooDeep, state)
  | .log line next, state => next.run operands room (state.leave (.log line))
  | .print line next, state => next.run operands room (state.leave (.print line))
  | .retrieve name next, state => (next (state.memory.get? name)).run operands room state
  | .remember name value next, state =>
    next.run operands room { state with memory := state.memory.insert name value }
  | .preserving names body next, state =>
    let saved := state.environment.save names
    let (result, inner) := body.run operands room state
    let outer := { inner with environment := inner.environment.restore saved }
    match result with
    | .ok (.value value) => (next value).run operands room outer
    | .ok (.stray kind) => (.ok (.stray kind), outer)
    | .error failure => (.error failure, outer)
  | .catching body next, state =>
    match body.run operands room state with
    | (.ok (.value value), state) => (next (.ok value)).run operands room state
    | (.ok (.stray kind), state) => (.ok (.stray kind), state)
    | (.error failure, state) => (next (.error failure)).run operands room state

end Plan

end Formula
