import Formula.Evaluation
import Formula.Library.Standard
import Mathlib.Data.List.GetD

/-! # Repetitions in rounds

A repetition forces its count or list, goes through rounds, and puts back the names that the rounds bind.
Here the rounds stand by themselves, as what happens to the state from one round to the next: a name is
bound, the body is forced, and a failure ends them. The plans of the library do just that.
-/
namespace Formula

def Outcome.given {α β : Type} (result : Except Failure α)
    (next : α → State → Except Failure β × State) (state : State) : Except Failure β × State :=
  match result with
  | .ok a => next a state
  | .error failure => (.error failure, state)

namespace State

def bind (state : State) (name : String) (value : Value) : State :=
  { state with environment := state.environment.bind name value }

def putBack (before : State) (names : List String) (after : State) : State :=
  { after with environment := after.environment.restore (before.environment.save names) }

end State

namespace Value

/-- How a value is refused with a cause that quotes its text. The stack may have no room to make the text. -/
def refusal (room : Option Nat) (value : Value) (cause : String → Cause) : Failure :=
  if fits value.textFrames (inside room) then .of (cause value.string) else .tooDeep

def rounds? (room : Option Nat) (place : String) : Value → Except Failure Nat
  | .number amount _ _ => .ok amount.truncate.toNat
  | other => .error (other.refusal room (.notANumber place other.kind))

def items? (room : Option Nat) (place : String) : Value → Except Failure (List Value)
  | .list items _ => .ok items
  | other => .error (other.refusal room (.notAList place))

end Value

def numbersFrom (first count : Nat) : List Value := (List.range' first count).map .ofNat

namespace Operand

open Library (itemName gatheredName)

def rounds (body : Operand) (room : Option Nat) :
    List Value → State → Except Failure (List Value) × State
  | [], state => (.ok [], state)
  | item :: items, state =>
    match body.force room (state.bind itemName item) with
    | (.error failure, state) => (.error failure, state)
    | (.ok value, state) =>
      let (result, state) := body.rounds room items state
      (result.map (value :: ·), state)

/-- The body is forced while the condition is true, at most `bound` times; the number of the next round is
bound after each. -/
def roundsWhile (condition body : Operand) (room : Option Nat) (round : Nat) : (bound : Nat) → State →
    Except Failure (List Value) × State
  | 0, state => (.ok [], state)
  | bound + 1, state =>
    match condition.force room state with
    | (.error failure, state) => (.error failure, state)
    | (.ok holds, state) =>
      if holds.truth then
        match body.force room state with
        | (.error failure, state) => (.error failure, state)
        | (.ok value, state) =>
          let (result, state) :=
            roundsWhile condition body room (round + 1) bound (state.bind itemName (.ofNat (round + 1)))
          (result.map (value :: ·), state)
      else (.ok [], state)

def gather (body : Operand) (room : Option Nat) (gathered : Value) : List Value → State → Outcome
  | [], state => (.ok gathered, state)
  | item :: items, state =>
    match body.force room ((state.bind gatheredName gathered).bind itemName item) with
    | (.error failure, state) => (.error failure, state)
    | (.ok value, state) => body.gather room value items state

end Operand

/-- Rounds that do not fail give a value for each item. -/
theorem Operand.length_rounds {body : Operand} {room : Option Nat} {items values : List Value}
    {state : State} (h : (body.rounds room items state).1 = .ok values) : values.length = items.length := by
  induction items generalizing state values with
  | nil =>
    obtain rfl := Except.ok.inj h
    rfl
  | cons item items ih =>
    rw [rounds] at h
    generalize body.force room (state.bind Library.itemName item) = outcome at h
    obtain ⟨(failure | value), after⟩ := outcome
    · cases h
    · dsimp only at h
      cases hrest : (body.rounds room items after).1 with
      | error failure =>
        rw [hrest] at h
        cases h
      | ok rest =>
        rw [hrest] at h
        obtain rfl := Except.ok.inj h
        exact congrArg (· + 1) (ih hrest)

/-- Rounds over one list and then, unless they failed, over another. -/
theorem Operand.rounds_append (body : Operand) (room : Option Nat) (items more : List Value) (state : State) :
    body.rounds room (items ++ more) state =
      match body.rounds room items state with
      | (.error failure, state) => (.error failure, state)
      | (.ok values, state) =>
        ((body.rounds room more state).1.map (values ++ ·), (body.rounds room more state).2) := by
  induction items generalizing state with
  | nil =>
    simp only [List.nil_append, rounds]
    generalize body.rounds room more state = ran
    obtain ⟨(failure | values), last⟩ := ran <;> rfl
  | cons item items ih =>
    rw [List.cons_append, rounds, rounds]
    generalize body.force room (state.bind Library.itemName item) = outcome
    obtain ⟨(failure | value), after⟩ := outcome
    · rfl
    · dsimp only
      rw [ih]
      generalize body.rounds room items after = ran
      obtain ⟨(failure | values), middle⟩ := ran
      · rfl
      · dsimp only [Except.map]
        generalize body.rounds room more middle = rest
        obtain ⟨(failure | others), last⟩ := rest <;> rfl

/-- Gathering goes on from the value gathered over the first items. -/
theorem Operand.gather_append (body : Operand) (room : Option Nat) (gathered : Value)
    (items more : List Value) (state : State) :
    body.gather room gathered (items ++ more) state =
      match body.gather room gathered items state with
      | (.error failure, state) => (.error failure, state)
      | (.ok value, state) => body.gather room value more state := by
  induction items generalizing gathered state with
  | nil => rfl
  | cons item items ih =>
    rw [List.cons_append, gather, gather]
    generalize body.force room _ = outcome
    obtain ⟨(failure | value), after⟩ := outcome
    · rfl
    · exact ih value after

def Outcome.ofRounds (value : List Value → Value) (ran : Except Failure (List Value) × State) : Outcome :=
  (ran.1.map value, ran.2)

def lastOf (values : List Value) : Value := values.getLastD .zero

def countTrue (values : List Value) : Value := .ofNat (values.countP Value.truth)

namespace Plan

variable {operands : List Operand} {room : Option Nat} {body condition : Operand} {state : State}

theorem run_bind (name : String) (value : Value) (next : Value → Plan) (state : State) :
    (Plan.bind name value next).run operands room state =
      (next (value.boundTo name)).run operands room (state.bind name value) := rfl

theorem run_force_eq (index : Nat) (h : operands[index]? = some body) (next : Value → Plan)
    (state : State) :
    (Plan.force index next).run operands room state =
      match body.force (inside room) state with
      | (.ok value, state) => (next value).run operands room state
      | (.error failure, state) => (.error failure, state) := by
  generalize hforced : body.force (inside room) state = outcome
  obtain ⟨result, after⟩ := outcome
  cases result with
  | ok value => simp only [Plan.run, h, hforced]
  | error failure => simp only [Plan.run, h, hforced]

/-- A body between names that are put back ends as it does by itself, but for these names. -/
theorem run_preserving (names : List String) (plan : Plan) (state : State) :
    (Plan.preserving names plan .done).run operands room state =
      ((plan.run operands room state).1, state.putBack names (plan.run operands room state).2) := by
  rw [Plan.run]
  generalize plan.run operands room state = outcome
  obtain ⟨(failure | reply), after⟩ := outcome
  · rfl
  · cases reply <;> rfl

theorem run_refuse (value : Value) (cause : String → Cause) (state : State) :
    (Plan.refuse value cause).run operands room state = (.error (value.refusal room cause), state) := by
  rw [refuse, Plan.run, Value.refusal]
  split <;> rfl

open Library

theorem run_rounds (place : String) (value : Value) (next : Nat → Plan) (state : State) :
    (rounds place value next).run operands room state =
      Outcome.given (value.rounds? room place) (fun count => (next count).run operands room) state := by
  cases value with
  | number => rfl
  | _ => exact run_refuse _ _ state

theorem run_items (place : String) (value : Value) (next : List Value → Plan) (state : State) :
    (Plan.items place value next).run operands room state =
      Outcome.given (value.items? room place) (fun items => (next items).run operands room) state := by
  cases value with
  | list => rfl
  | _ => exact run_refuse _ _ state

theorem run_loopFrom (h : operands[0]? = some body) (round : Nat) (last : Value) (count : Nat)
    (state : State) :
    (loopFrom round last count).run operands room state =
      ((body.rounds (inside room) (numbersFrom round count) state).1.map fun values =>
          .value (values.getLastD last),
        (body.rounds (inside room) (numbersFrom round count) state).2) := by
  induction count generalizing round last state with
  | zero => rfl
  | succ count ih =>
    have hnumbers : numbersFrom round (count + 1) = .ofNat round :: numbersFrom (round + 1) count := rfl
    rw [loopFrom, run_bind, run_force_eq _ h, hnumbers, Operand.rounds]
    generalize body.force (inside room) (state.bind itemName (.ofNat round)) = outcome
    obtain ⟨(failure | value), after⟩ := outcome
    · rfl
    · dsimp only
      rw [ih]
      generalize body.rounds (inside room) (numbersFrom (round + 1) count) after = ran
      obtain ⟨(failure | values), last⟩ := ran
      · rfl
      · simp only [Except.map, List.getLastD_cons]

theorem run_mapOver (h : operands[0]? = some body) (results items : List Value) (state : State) :
    (mapOver results items).run operands room state =
      ((body.rounds (inside room) items state).1.map fun values =>
          .value (.list (results.reverse ++ values) none),
        (body.rounds (inside room) items state).2) := by
  induction items generalizing results state with
  | nil => simp [mapOver, Plan.run, Operand.rounds, Except.map]
  | cons item items ih =>
    rw [mapOver, run_bind, run_force_eq _ h, Operand.rounds]
    generalize body.force (inside room) (state.bind itemName item) = outcome
    obtain ⟨(failure | value), after⟩ := outcome
    · rfl
    · dsimp only
      rw [ih]
      generalize body.rounds (inside room) items after = ran
      obtain ⟨(failure | values), last⟩ := ran
      · rfl
      · simp [Except.map]

theorem run_countOver (h : operands[0]? = some body) (count : Nat) (items : List Value) (state : State) :
    (countOver count items).run operands room state =
      ((body.rounds (inside room) items state).1.map fun values =>
          .value (.ofNat (count + values.countP Value.truth)),
        (body.rounds (inside room) items state).2) := by
  induction items generalizing count state with
  | nil => rfl
  | cons item items ih =>
    rw [countOver, run_bind, run_force_eq _ h, Operand.rounds]
    generalize body.force (inside room) (state.bind itemName item) = outcome
    obtain ⟨(failure | value), after⟩ := outcome
    · rfl
    · dsimp only
      rw [ih]
      generalize body.rounds (inside room) items after = ran
      obtain ⟨(failure | values), last⟩ := ran
      · rfl
      · simp only [Except.map, List.countP_cons]
        split <;> simp [Nat.add_comm, Nat.add_left_comm]

theorem run_whileFrom (hcondition : operands[0]? = some condition) (hbody : operands[2]? = some body)
    (round : Nat) (last : Value) (bound : Nat) (state : State) :
    (whileFrom round last bound).run operands room state =
      ((Operand.roundsWhile condition body (inside room) round bound state).1.map fun values =>
          .value (values.getLastD last),
        (Operand.roundsWhile condition body (inside room) round bound state).2) := by
  induction bound generalizing round last state with
  | zero => rfl
  | succ bound ih =>
    rw [whileFrom, run_force_eq _ hcondition, Operand.roundsWhile]
    generalize condition.force (inside room) state = outcome
    obtain ⟨(failure | holds), middle⟩ := outcome
    · rfl
    dsimp only
    split
    · rw [run_force_eq _ hbody]
      generalize body.force (inside room) middle = outcome
      obtain ⟨(failure | value), after⟩ := outcome
      · rfl
      · dsimp only
        rw [run_bind, ih]
        generalize Operand.roundsWhile condition body (inside room) (round + 1) bound _ = ran
        obtain ⟨(failure | values), last⟩ := ran
        · rfl
        · simp only [Except.map, List.getLastD_cons]
    · rfl

theorem run_reduceOver (h : operands[0]? = some body) (gathered : Value) (items : List Value)
    (state : State) :
    (reduceOver gathered items).run operands room state =
      ((body.gather (inside room) gathered items state).1.map .value,
        (body.gather (inside room) gathered items state).2) := by
  induction items generalizing gathered state with
  | nil => rfl
  | cons item items ih =>
    rw [reduceOver, run_bind, run_bind, run_force_eq _ h, Operand.gather]
    generalize body.force (inside room) ((state.bind gatheredName gathered).bind itemName item) = outcome
    obtain ⟨(failure | value), after⟩ := outcome
    · rfl
    · exact ih value after

end Plan

end Formula
