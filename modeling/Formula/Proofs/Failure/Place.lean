import Formula.Failure

/-! # Where failures are

A failure of an expression is at a place of the text, or has no place until something around it gives it
one. Computations that may fail are described by what they yield: a result of one kind, or a failure of
another.
-/
namespace Formula

namespace Failure

def LiesIn (first bound : Nat) (failure : Failure) : Prop :=
  ∃ cause offset, failure = .at cause offset ∧ first ≤ offset ∧ offset < bound

theorem LiesIn.mono {failure : Failure} {first bound start limit : Nat}
    (h : failure.LiesIn first bound) (hstart : start ≤ first) (hlimit : bound ≤ limit) :
    failure.LiesIn start limit := by
  obtain ⟨cause, offset, hfailure, hfirst, hbound⟩ := h
  exact ⟨cause, offset, hfailure, by omega, by omega⟩

theorem liesIn_at (cause : Cause) {offset bound : Nat} (h : offset < bound) :
    (Failure.at cause offset).LiesIn 0 bound := ⟨cause, offset, rfl, Nat.zero_le offset, h⟩

def Unlocated (failure : Failure) : Prop := ∃ cause, failure = .of cause

def Reported (failure : Failure) : Prop := ∀ name, (failure.within name).Unlocated

theorem unlocated_of (cause : Cause) : (Failure.of cause).Unlocated := ⟨cause, rfl⟩

theorem Unlocated.reported {failure : Failure} (h : failure.Unlocated) : failure.Reported := by
  obtain ⟨cause, rfl⟩ := h
  exact fun _ => unlocated_of cause

theorem reported_of (cause : Cause) : (Failure.of cause).Reported := (unlocated_of cause).reported

theorem reported_numeric (signal : Signal) : (Failure.numeric signal).Reported := by
  intro name
  cases signal <;> exact unlocated_of _

theorem reported_floating (fault : Binary64.Fault) : (Failure.floating fault).Reported := by
  intro name
  cases fault <;> exact unlocated_of _

theorem reported_tooLarge (message : String) : (Failure.tooLarge message).Reported :=
  fun _ => unlocated_of _

/-- At a place before `bound`; or at the limit on nesting, if there is one. -/
def Placed (bound : Nat) (limited : Bool) (failure : Failure) : Prop :=
  failure.LiesIn 0 bound ∨ limited = true ∧ failure = .tooDeep

theorem placed_locate {bound offset : Nat} {limited : Bool} {failure : Failure}
    (h : failure.Unlocated ∨ failure.Placed bound limited) (hoffset : offset < bound) :
    (failure.locate offset).Placed bound limited := by
  obtain ⟨cause, rfl⟩ | ⟨cause, place, rfl, hplace⟩ | ⟨hlimited, rfl⟩ := h
  · exact .inl (liesIn_at cause hoffset)
  · exact .inl ⟨cause, place, rfl, hplace⟩
  · exact .inr ⟨hlimited, rfl⟩

end Failure

theorem exists_of_bind_eq_ok {ε α β : Type} {result : Except ε α} {next : α → Except ε β} {b : β}
    (h : (result >>= next) = .ok b) : ∃ a, result = .ok a ∧ next a = .ok b := by
  cases result with
  | ok a => exact ⟨a, rfl, h⟩
  | error failure => cases h

inductive Yields {α : Type} (good : α → Prop) (reports : Failure → Prop) : Except Failure α → Prop
  | ok {a : α} (h : good a) : Yields good reports (.ok a)
  | error {failure : Failure} (h : reports failure) : Yields good reports (.error failure)

abbrev FailsWith {α : Type} (reports : Failure → Prop) : Except Failure α → Prop :=
  Yields (fun _ => True) reports

namespace Yields

variable {α β : Type} {good : α → Prop} {better : β → Prop} {reports : Failure → Prop}
  {result other : Except Failure α}

theorem of_ok {a : α} (h : Yields good reports (.ok a)) : good a := by
  cases h
  assumption

theorem of_error {failure : Failure} (h : Yields good reports (.error failure)) : reports failure := by
  cases h
  assumption

theorem bind (h : Yields good reports result) {next : α → Except Failure β}
    (hnext : ∀ a, good a → Yields better reports (next a)) :
    Yields better reports (result >>= next) := by
  cases h with
  | ok h => exact hnext _ h
  | error h => exact .error h

theorem ite {condition : Prop} [Decidable condition] (h : Yields good reports result)
    (k : Yields good reports other) : Yields good reports (if condition then result else other) := by
  split
  · exact h
  · exact k

theorem mapError {ε : Type} {f : ε → Failure} (hf : ∀ e, reports (f e)) (result : Except ε α) :
    FailsWith reports (result.mapError f) := by
  cases result with
  | ok a => exact .ok trivial
  | error e => exact .error (hf e)

end Yields

end Formula
