import Formula.Library.Standard
import Formula.Proofs.Evaluation.Run

/-! # What choices force

A choice forces conditions in order, each once, until one decides, and then one branch. The same is said here
of operands that may do anything when they are forced, and then shown of the functions and operators of the
standard library that choose. A condition is forced inside the choice, a branch in its place on the stack.
-/
namespace Formula

def alternating {α : Type} : List (α × α) → α → List α
  | [], last => [last]
  | (first, second) :: pairs, last => first :: second :: alternating pairs last

section Alternating

variable {α β : Type} (pairs : List (α × α)) (last : α)

theorem length_alternating : (alternating pairs last).length = 2 * pairs.length + 1 := by
  induction pairs with
  | nil => rfl
  | cons pair pairs ih =>
    rw [alternating, List.length_cons, List.length_cons, List.length_cons, ih]
    omega

theorem map_alternating (f : α → β) :
    (alternating pairs last).map f = alternating (pairs.map (Prod.map f f)) (f last) := by
  induction pairs with
  | nil => rfl
  | cons pair pairs ih =>
    rw [alternating, List.map_cons, List.map_cons, ih]
    rfl

end Alternating

namespace Operand

def thenDoes (operand : Operand) (room : Option Nat) (next : Value → State → Outcome) (state : State) :
    Outcome :=
  Outcome.andThen next (operand.force room state)

/-- Forces the first operands of the pairs in order until one is true, and then the second one of this pair.
If none is true, forces the default. -/
def chosen : List (Operand × Operand) → Operand → Option Nat → State → Outcome
  | [], default, room => default.force room
  | (condition, branch) :: pairs, default, room =>
    condition.thenDoes (inside room) fun value =>
      if value.truth then branch.force room else chosen pairs default room

/-- After a condition that is false the others are asked. -/
theorem chosen_of_false {condition branch default : Operand} {pairs : List (Operand × Operand)}
    {room : Option Nat} {value : Value} {state after : State}
    (h : condition.force (inside room) state = (.ok value, after)) (hfalse : value.truth = false) :
    chosen ((condition, branch) :: pairs) default room state = chosen pairs default room after := by
  rw [chosen, thenDoes, h, Outcome.andThen, hfalse]
  rfl

def ending (value : Value) (state : State) : Outcome := (.ok value, state)

def asks (wanted : Bool) (first second : Operand) (room : Option Nat) : State → Outcome :=
  first.thenDoes (inside room) fun value =>
    if value.truth = wanted then second.thenDoes (inside room) fun other => ending (.ofBool other.truth)
    else ending (.ofBool value.truth)

def negated (operand : Operand) (room : Option Nat) : State → Outcome :=
  operand.thenDoes room fun value => ending (.ofBool !value.truth)

end Operand

def Behaviour.Performs (behaviour : Behaviour) (operands : List Operand)
    (evaluation : Option Nat → State → Outcome) : Prop :=
  ∀ (settings : Settings) (room : Option Nat) (role name : String),
    behaviour.apply settings room role name operands = evaluation room

namespace Library

open Operand

variable {room : Option Nat} {role name : String} {operands : List Operand} {target : Operand} {index : Nat}

/-- A lazy plan that forces an operand goes on with its value. -/
theorem applyLazy_force (h : operands[index]? = some target) (next : Value → Plan) :
    applyLazy room role name (.force index next) operands =
      target.thenDoes (inside room) fun value => applyLazy room role name (next value) operands := by
  funext state
  rw [applyLazy, Plan.run, h, thenDoes]
  dsimp only
  generalize target.force (inside room) state = outcome
  obtain ⟨result, after⟩ := outcome
  cases result <;> rfl

theorem applyLazy_operand (h : operands[index]? = some target) :
    applyLazy room role name (.operand index) operands = target.force room := by
  funext state
  rw [applyLazy, Plan.run, h]
  dsimp only
  generalize target.force room state = outcome
  obtain ⟨result, after⟩ := outcome
  cases result <;> rfl

theorem performs_choice (condition branch default : Operand) :
    (Behaviour.lazy choice).Performs [condition, branch, default] (chosen [(condition, branch)] default) := by
  intro settings room role name
  have hplan : (Behaviour.lazy choice).apply settings room role name [condition, branch, default] =
      applyLazy room role name (.force 0 fun value => if value.truth then .operand 1 else .operand 2)
        [condition, branch, default] := rfl
  rw [hplan, applyLazy_force rfl]
  refine congrArg (condition.thenDoes (inside room)) (funext fun value => ?_)
  split
  · exact applyLazy_operand rfl
  · exact applyLazy_operand rfl

theorem applyLazy_caseFrom (before : List Operand) (pairs : List (Operand × Operand)) (default : Operand) :
    applyLazy room role name (caseFrom before.length pairs.length) (before ++ alternating pairs default) =
      chosen pairs default room := by
  -- The conditions asked so far stand before those that are left, with their branches.
  induction pairs generalizing before with
  | nil => exact applyLazy_operand (by simp [alternating])
  | cons pair pairs ih =>
    obtain ⟨condition, branch⟩ := pair
    have hrest := ih (before ++ [condition, branch])
    rw [List.length_append, List.append_assoc] at hrest
    rw [List.length_cons, caseFrom, applyLazy_force (by simp [alternating]; rfl), chosen]
    refine congrArg (condition.thenDoes (inside room)) (funext fun value => ?_)
    split
    · exact applyLazy_operand (by simp [alternating])
    · exact hrest

theorem performs_caseOf {pairs : List (Operand × Operand)} (hpairs : pairs ≠ []) (default : Operand) :
    (Behaviour.lazy caseOf).Performs (alternating pairs default) (chosen pairs default) := by
  intro settings room role name
  have hnonempty : 0 < pairs.length := List.length_pos_of_ne_nil hpairs
  have hplan : caseOf settings (alternating pairs default).length = caseFrom 0 pairs.length := by
    rw [length_alternating, caseOf, if_neg (by omega), Nat.mul_add_div (by decide)]
    rfl
  have happlied : (Behaviour.lazy caseOf).apply settings room role name (alternating pairs default) =
      applyLazy room role name (caseOf settings (alternating pairs default).length)
        (alternating pairs default) := rfl
  rw [happlied, hplan]
  exact applyLazy_caseFrom [] pairs default

theorem performs_conjunction (first second : Operand) :
    (Behaviour.lazy conjunction).Performs [first, second] (asks true first second) := by
  intro settings room role name
  have hplan : (Behaviour.lazy conjunction).apply settings room role name [first, second] =
      applyLazy room role name (.force 0 fun a =>
        if a.truth then .force 1 fun b => .done (.ofBool b.truth) else .done (.ofBool false))
        [first, second] := rfl
  rw [hplan, applyLazy_force rfl]
  refine congrArg (first.thenDoes (inside room)) (funext fun value => ?_)
  cases value.truth with
  | true => exact applyLazy_force rfl _
  | false => rfl

theorem performs_disjunction (first second : Operand) :
    (Behaviour.lazy disjunction).Performs [first, second] (asks false first second) := by
  intro settings room role name
  have hplan : (Behaviour.lazy disjunction).apply settings room role name [first, second] =
      applyLazy room role name (.force 0 fun a =>
        if a.truth then .done (.ofBool true) else .force 1 fun b => .done (.ofBool b.truth))
        [first, second] := rfl
  rw [hplan, applyLazy_force rfl]
  refine congrArg (first.thenDoes (inside room)) (funext fun value => ?_)
  cases value.truth with
  | true => rfl
  | false => exact applyLazy_force rfl _

theorem performs_negation (operand : Operand) :
    (Behaviour.eager negation).Performs [operand] operand.negated := by
  intro settings room role name
  funext state
  rw [negated, thenDoes, Behaviour.apply]
  simp only [forceAll]
  generalize operand.force room state = outcome
  obtain ⟨result, after⟩ := outcome
  cases result <;> rfl

end Library

end Formula
