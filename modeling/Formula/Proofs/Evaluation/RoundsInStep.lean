import Formula.Proofs.Environment.Restoration
import Formula.Proofs.Evaluation.Agreement
import Formula.Proofs.Evaluation.EchoTree
import Formula.Proofs.Evaluation.Rounds

/-! # Rounds in step

Rounds over the same items go in step where their bodies echo each other. Rounds that ask a condition first,
which is always true, and bind the number of the next round afterwards go in step with the rounds over the
numbers: they bind one number more in the end, and that is lost where the name is put back.
-/
namespace Formula

open Library (itemName)

namespace Environment

structure Alike (left right : Environment) : Prop where
  table : left.table = right.table
  forces : ∀ cell, left.forcesOf cell = right.forcesOf cell

theorem Alike.refl (env : Environment) : env.Alike env := ⟨rfl, fun _ => rfl⟩

/-- A new cell was not forced yet. -/
theorem forcesOf_bind (env : Environment) (name : String) (value : Value) (cell : Cell) :
    (env.bind name value).forcesOf cell = env.forcesOf cell := by
  have hpush : (env.forces.push 0)[cell.id]?.getD 0 = env.forces[cell.id]?.getD 0 := by
    rw [Array.getElem?_push]
    split
    next hid => simp [hid]
    next => rfl
  rw [forcesOf, forcesOf, Array.getD_eq_getD_getElem?, Array.getD_eq_getD_getElem?]
  exact hpush

/-- What was bound last to a name that is put back makes no difference. -/
theorem restore_bind (before env : Environment) (name : String) (value : Value) :
    ((env.bind name value).restore (before.save [name])).Alike (env.restore (before.save [name])) := by
  constructor
  · obtain ⟨table, forces⟩ := env
    cases hcell : before.cell? name with
    | none =>
      rw [save, List.map_singleton, hcell]
      exact Table.erase_insert table name _
    | some cell =>
      rw [save, List.map_singleton, hcell]
      exact Table.insert_insert table name _ cell
  · intro cell
    rw [forcesOf, forcesOf, forces_restore, forces_restore]
    exact forcesOf_bind env name value cell

end Environment

variable {α : Type} {older : List Event} {s t : State}

theorem State.Echoes.bind (h : s.Echoes older t) (name : String) (value : Value) :
    (s.bind name value).Echoes older (t.bind name value) :=
  ⟨congrArg (·.bind name value) h.environment, h.memory, h.trail⟩

/-- The left side ends with what the right side ends with, after the older lines and up to places, once the
name of the items is put back. -/
structure Follows (older : List Event) (left right : Except Failure α × State) : Prop where
  result : left.1.mapError Failure.unplaced = right.1.mapError Failure.unplaced
  environment : ∀ before : Environment, (left.2.environment.restore (before.save [itemName])).Alike
    (right.2.environment.restore (before.save [itemName]))
  memory : left.2.memory = right.2.memory
  trail : left.2.trail = right.2.trail ++ older

namespace Follows

variable {left right : Except Failure α × State}

theorem of_echoes (h : Echoes False older left right) : Follows older left right := by
  cases h with
  | deep h => exact h.elim
  | ok h => exact ⟨rfl, fun before => h.environment ▸ .refl _, h.memory, h.trail⟩
  | error hfailure h =>
    exact ⟨congrArg Except.error hfailure, fun before => h.environment ▸ .refl _, h.memory, h.trail⟩

theorem map {β : Type} (h : Follows older left right) (f : α → β) :
    Follows older (left.1.map f, left.2) (right.1.map f, right.2) := by
  refine ⟨?_, h.environment, h.memory, h.trail⟩
  have hresult := h.result
  obtain ⟨result, after⟩ := left
  obtain ⟨other, last⟩ := right
  cases result with
  | ok a =>
    cases other with
    | ok b =>
      obtain rfl := Except.ok.inj hresult
      rfl
    | error failure => cases hresult
  | error failure =>
    cases other with
    | ok b => cases hresult
    | error failure => exact congrArg Except.error (Except.error.inj hresult)

end Follows

namespace Operand

variable {room : Option Nat} {left right condition : Operand}

def Gives (room : Option Nat) (value : Value) (operand : Operand) : Prop :=
  ∀ state : State, ∃ after, operand.force room state = (.ok value, after) ∧ after.Agrees state

def Echoes (room : Option Nat) (older : List Event) (left right : Operand) : Prop :=
  ∀ ⦃s t : State⦄, s.Echoes older t →
    Formula.Echoes False older (left.force room s) (right.force room t)

theorem rounds_echoes (hbody : Echoes room older left right) (items : List Value) (h : s.Echoes older t) :
    Formula.Echoes False older (left.rounds room items s) (right.rounds room items t) := by
  induction items generalizing s t with
  | nil => exact .ok h
  | cons item items ih =>
    have hforced := hbody (h.bind itemName item)
    rw [rounds, rounds]
    generalize left.force room (s.bind itemName item) = first at hforced
    generalize right.force room (t.bind itemName item) = second at hforced
    cases hforced with
    | deep h => exact h.elim
    | error hfailure h => exact .error hfailure h
    | @ok value after last h =>
      have hrest := ih h
      dsimp only
      generalize left.rounds room items after = first at hrest
      generalize right.rounds room items last = second at hrest
      cases hrest with
      | deep h => exact h.elim
      | ok h => exact .ok h
      | error hfailure h => exact .error hfailure h

/-- The rounds whose condition holds are those over the numbers. -/
theorem roundsWhile_follows (hbody : Echoes room older left right) {holds : Value}
    (hcondition : condition.Gives room holds) (hholds : holds.truth = true) (round bound : Nat)
    (h : s.Echoes older t) :
    Follows older (roundsWhile condition left room round bound (s.bind itemName (.ofNat round)))
      (right.rounds room (numbersFrom round bound) t) := by
  -- A round begins on both sides with its number bound. On the left that was done after the round before, so
  -- the sides differ in the number after the last one only.
  induction bound generalizing round s t with
  | zero =>
    refine ⟨rfl, fun before => ?_, h.memory, h.trail⟩
    have hended : (right.rounds room (numbersFrom round 0) t).2.environment = s.environment := h.environment.symm
    rw [hended]
    exact Environment.restore_bind before s.environment itemName (.ofNat round)
  | succ bound ih =>
    obtain ⟨middle, hasked, hmiddle⟩ := hcondition (s.bind itemName (.ofNat round))
    have hbound := h.bind itemName (.ofNat round)
    have hstart : middle.Echoes older (t.bind itemName (.ofNat round)) :=
      ⟨hmiddle.environment.trans hbound.environment, hmiddle.memory.trans hbound.memory,
        hmiddle.trail.trans hbound.trail⟩
    have hforced := hbody hstart
    have hnumbers : numbersFrom round (bound + 1) = .ofNat round :: numbersFrom (round + 1) bound := rfl
    rw [roundsWhile, hasked, hnumbers, rounds]
    simp only [hholds, if_true]
    generalize left.force room middle = first at hforced
    generalize right.force room (t.bind itemName (.ofNat round)) = second at hforced
    cases hforced with
    | deep h => exact h.elim
    | error hfailure h => exact .of_echoes (.error hfailure h)
    | @ok value after last h => exact (ih (round + 1) h).map (value :: ·)

end Operand

/-- What is made of the values of rounds in step. -/
theorem Follows.ofRounds {left right : Except Failure (List Value) × State} (h : Follows older left right)
    (value : List Value → Value) : Follows older (Outcome.ofRounds value left) (right.1.map value, right.2) :=
  h.map value

end Formula
