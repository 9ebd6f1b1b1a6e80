import Formula.Library.Arguments

/-! # Control flow of the standard library

Sequences, choices and repetitions are lazy: their operands are forced as often as they say. Repetitions
bind the names `_` and `acc` for their bodies and put back what these names held before.
-/
namespace Formula.Library

def itemName : String := "_"

def gatheredName : String := "acc"

/-- Forces the left operand, logs its text, and forces the right one. -/
def sequence : Settings → Nat → Plan :=
  deferred 2 fun _ => .force 0 fun first => .text first fun line => .log line (.force 1 .done)

def choice : Settings → Nat → Plan :=
  deferred 3 fun _ => .force 0 fun condition => if condition.truth then .operand 1 else .operand 2

def rounds (place : String) (value : Value) (next : Nat → Plan) : Plan :=
  .number place value fun number => next number.truncate.toNat

/-- Forces the body `rounds` more times, with the number of the round in `_`. -/
def loopFrom (round : Nat) (last : Value) : (rounds : Nat) → Plan
  | 0 => .done last
  | rounds + 1 =>
    .bind itemName (.ofNat round) fun _ => .force 0 fun value => loopFrom (round + 1) value rounds

def loop : Settings → Nat → Plan :=
  deferred 2 fun _ =>
    .force 1 fun count =>
      rounds "loop" count fun count =>
        .preserving [itemName] (loopFrom 0 .zero count) .done

/-- Forces the body for each item. `results` holds the values so far, the latest first. -/
def mapOver (results : List Value) : List Value → Plan
  | [] => .done (.list results.reverse none)
  | item :: items => .bind itemName item fun _ => .force 0 fun value => mapOver (value :: results) items

def mapPlan : Settings → Nat → Plan :=
  deferred 2 fun _ =>
    .force 1 fun items =>
      .items "map" items fun items => .preserving [itemName] (mapOver [] items) .done

def countOver (count : Nat) : List Value → Plan
  | [] => .done (.ofNat count)
  | item :: items =>
    .bind itemName item fun _ =>
      .force 0 fun value => countOver (if value.truth then count + 1 else count) items

def forPlan : Settings → Nat → Plan :=
  deferred 2 fun _ =>
    .force 1 fun items =>
      .items "for" items fun items => .preserving [itemName] (countOver 0 items) .done

/-- Rounds go on while the condition is true and `bound` is not used up. -/
def whileFrom (round : Nat) (last : Value) : (bound : Nat) → Plan
  | 0 => .done last
  | bound + 1 =>
    .force 0 fun condition =>
      if condition.truth then
        .force 2 fun value =>
          .bind itemName (.ofNat (round + 1)) fun _ => whileFrom (round + 1) value bound
      else .done last

def whilePlan : Settings → Nat → Plan :=
  deferred 3 fun _ =>
    .force 1 fun bound =>
      rounds "while" bound fun bound =>
        .preserving [itemName]
          (.bind itemName .zero fun _ => whileFrom 0 .zero bound) .done

def reduceOver (gathered : Value) : List Value → Plan
  | [] => .done gathered
  | item :: items =>
    .bind gatheredName gathered fun _ =>
      .bind itemName item fun _ => .force 0 fun value => reduceOver value items

/-- A body, a list and a first value. An empty list gives the first value on. -/
def reduce : Settings → Nat → Plan :=
  deferred 3 fun _ =>
    .force 2 fun initial =>
      .force 1 fun items =>
        .items "reduce" items fun items =>
          if items.isEmpty then .done initial
          else .preserving [gatheredName, itemName] (reduceOver initial items) .done

/-- Forces the conditions at `index`, `index + 2`, ... until one is true, and goes on with the operand
after it; after `pairs` conditions it goes on with the operand that is left. -/
def caseFrom (index : Nat) : (pairs : Nat) → Plan
  | 0 => .operand index
  | pairs + 1 =>
    .force index fun condition =>
      if condition.truth then .operand (index + 1) else caseFrom (index + 2) pairs

def caseOf : Settings → Nat → Plan :=
  fun _ operands =>
    if operands % 2 = 0 ∨ operands < 3 then .fail (.of .incompleteCase)
    else caseFrom 0 (operands / 2)

end Formula.Library
