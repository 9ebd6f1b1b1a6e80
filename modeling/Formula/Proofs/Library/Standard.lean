import Formula.Library.Standard
import Formula.Proofs.Evaluation.Run

/-! # The standard library keeps its promises

No behaviour of the standard library asks how often an operand was forced, and sequences force their
left operand once and first. So runs of the standard operators evaluate as their plain trees do.
-/
namespace Formula

theorem Plan.discreet_items {operands : Nat} (place : String) (value : Value) {next : List Value → Plan}
    (h : ∀ items, (next items).Discreet operands) : (Plan.items place value next).Discreet operands := by
  cases value with
  | list items _ => exact h items
  | _ => exact fun _ => trivial

theorem Plan.discreet_ite {condition : Prop} [Decidable condition] {operands : Nat}
    {plan other : Plan} (h : plan.Discreet operands) (k : other.Discreet operands) :
    (if condition then plan else other).Discreet operands := by
  split
  · exact h
  · exact k

namespace Library

variable {operands : Nat}

theorem discreet_deferred {count : Nat} {plan : Settings → Plan}
    (h : ∀ settings, (plan settings).Discreet count) :
    (Behaviour.lazy (deferred count plan)).Discreet := by
  intro settings operands
  unfold deferred
  split
  next hcount => exact hcount ▸ h settings
  next => trivial

theorem discreet_rounds (place : String) (value : Value) {next : Nat → Plan}
    (h : ∀ count, (next count).Discreet operands) : (rounds place value next).Discreet operands := by
  cases value with
  | number => exact h _
  | _ => exact fun _ => trivial

theorem discreet_loopFrom (round : Nat) (last : Value) (rounds : Nat) :
    (loopFrom round last rounds).Discreet operands := by
  induction rounds generalizing round last with
  | zero => trivial
  | succ rounds ih => exact fun _ value => ih (round + 1) value

theorem discreet_mapOver (results items : List Value) :
    (mapOver results items).Discreet operands := by
  induction items generalizing results with
  | nil => trivial
  | cons item items ih => exact fun _ value => ih (value :: results)

theorem discreet_countOver (count : Nat) (items : List Value) :
    (countOver count items).Discreet operands := by
  induction items generalizing count with
  | nil => trivial
  | cons item items ih => exact fun _ value => ih _

theorem discreet_whileFrom (round : Nat) (last : Value) (bound : Nat) :
    (whileFrom round last bound).Discreet operands := by
  induction bound generalizing round last with
  | zero => trivial
  | succ bound ih =>
    exact fun condition => Plan.discreet_ite (fun value _ => ih (round + 1) value) trivial

theorem discreet_reduceOver (gathered : Value) (items : List Value) :
    (reduceOver gathered items).Discreet operands := by
  induction items generalizing gathered with
  | nil => trivial
  | cons item items ih => exact fun _ _ value => ih value

theorem discreet_caseFrom (index pairs : Nat) : (caseFrom index pairs).Discreet operands := by
  induction pairs generalizing index with
  | zero => trivial
  | succ pairs ih => exact fun condition => Plan.discreet_ite trivial (ih (index + 2))

theorem discreet_operators : ∀ op ∈ operators, op.behaviour.Discreet := by
  have hsequence : (Behaviour.lazy sequence).Discreet := discreet_deferred fun _ _ _ _ => trivial
  have hdisjunction : (Behaviour.lazy disjunction).Discreet :=
    discreet_deferred fun _ _ => Plan.discreet_ite trivial fun _ => trivial
  have hconjunction : (Behaviour.lazy conjunction).Discreet :=
    discreet_deferred fun _ _ => Plan.discreet_ite (fun _ => trivial) trivial
  simp only [operators, lazyOperator, binaryOperator, unaryOperator, List.forall_mem_cons,
    Behaviour.discreet_eager, true_and, hsequence, hdisjunction, hconjunction]
  exact List.forall_mem_nil _

theorem discreet_functions : ∀ f ∈ functions, f.behaviour.Discreet := by
  have hchoice : (Behaviour.lazy choice).Discreet :=
    discreet_deferred fun _ _ => Plan.discreet_ite trivial trivial
  have hloop : (Behaviour.lazy loop).Discreet :=
    discreet_deferred fun _ _ => discreet_rounds _ _ fun _ => ⟨discreet_loopFrom _ _ _, fun _ => trivial⟩
  have hmap : (Behaviour.lazy mapPlan).Discreet :=
    discreet_deferred fun _ _ => Plan.discreet_items _ _ fun _ => ⟨discreet_mapOver _ _, fun _ => trivial⟩
  have hfor : (Behaviour.lazy forPlan).Discreet :=
    discreet_deferred fun _ _ => Plan.discreet_items _ _ fun _ => ⟨discreet_countOver _ _, fun _ => trivial⟩
  have hwhile : (Behaviour.lazy whilePlan).Discreet :=
    discreet_deferred fun _ _ => discreet_rounds _ _ fun _ =>
      ⟨fun _ => discreet_whileFrom _ _ _, fun _ => trivial⟩
  have hreduce : (Behaviour.lazy reduce).Discreet :=
    discreet_deferred fun _ _ _ => Plan.discreet_items _ _ fun _ =>
      Plan.discreet_ite trivial ⟨discreet_reduceOver _ _, fun _ => trivial⟩
  have hcase : (Behaviour.lazy caseOf).Discreet :=
    fun _ _ => Plan.discreet_ite trivial (discreet_caseFrom _ _)
  simp only [functions, lazyFunction, eagerFunction, List.forall_mem_append, List.forall_mem_cons,
    List.forall_mem_map, Behaviour.discreet_eager, true_and, hchoice, hloop, hmap, hfor, hwhile, hreduce,
    hcase]
  exact ⟨List.forall_mem_nil _, fun _ _ => trivial⟩

theorem leftFirst_operators : ∀ op ∈ operators, op.chainable = true → op.behaviour.LeftFirst := by
  have hsequence : (Behaviour.lazy sequence).LeftFirst := fun _ =>
    ⟨fun first => .text first fun line => .log line (.force 1 .done),
      fun _ => ⟨fun _ => ⟨Nat.one_ne_zero, fun _ => trivial⟩, fun _ _ => trivial⟩, fun _ _ _ => rfl⟩
  simp only [operators, lazyOperator, binaryOperator, unaryOperator, List.forall_mem_cons,
    Behaviour.leftFirst_eager, implies_true, true_and, hsequence]
  -- Of the other lazy operators none is chainable.
  refine ⟨fun hdisjunction => ?_, fun hconjunction => ?_, List.forall_mem_nil _⟩
  · cases hdisjunction
  · cases hconjunction

end Library

/-- The standard registry promises what evaluating runs relies on. -/
theorem Registry.standard_keeps : Registry.standard.Keeps where
  operators _ op hop := Library.discreet_operators op (mem_of_operator?_standard hop).2
  functions _ f hf := Library.discreet_functions f (mem_of_function?_standard hf)
  leftFirst _ op hop := Library.leftFirst_operators op (mem_of_operator?_standard hop).2

end Formula
