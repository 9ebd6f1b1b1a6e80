import Formula.Proofs.Evaluation.Agreement
import Formula.Proofs.Evaluation.SimulationTree
import Formula.Proofs.Tree.Plain

/-! # Runs and plain trees evaluate alike

A run is folded from the left: each of its operators sees the value so far in place of its left
operand. An operator that forces its left operand once and before anything else cannot tell the two
apart, so a tree and its plain form have agreeing outcomes.
-/
namespace Formula

/-- The plan runs like one that forces the first operand, fails if that does, and goes on without
looking at this operand again. -/
def Plan.LeftFirst (operands : Nat) (plan : Plan) : Prop :=
  ∃ next : Value → Plan, (∀ value, (next value).Spares 0 ∧ (next value).Discreet operands) ∧
    ∀ operands room state, plan.run operands room state = (Plan.force 0 next).run operands room state

def Behaviour.LeftFirst : Behaviour → Prop
  | .eager _ => True
  | .lazy plan => ∀ settings, (plan settings 2).LeftFirst 2

@[simp] theorem Behaviour.leftFirst_eager (plan : Settings → List Value → Plan) :
    (Behaviour.eager plan).LeftFirst := trivial

def Outcome.andThen (next : Value → State → Outcome) : Outcome → Outcome
  | (.ok value, state) => next value state
  | (.error failure, state) => (.error failure, state)

/-- A plan that spares the first of two operands runs alike where only this one differs. -/
theorem Plan.run_spared {plan : Plan} (hplan : plan.Spares 0 ∧ plan.Discreet 2)
    {left right first other : Operand} (hright : right.Agrees other) {s t : State}
    (h : (Simulation.agreement False).states [] s t) :
    (Simulation.agreement False).Ends Eq (Simulation.agreement False).Replies []
      (plan.run [left, right] none s) (plan.run [first, other] none t) := by
  obtain ⟨hspares, hdiscreet⟩ := hplan
  have hspares : ∀ index, index = 0 → plan.Spares index := by
    rintro index rfl
    exact hspares
  have hoperands : ∀ index (hl : index < [left, right].length) (hr : index < [first, other].length),
      ¬ index = 0 → (Simulation.agreement False).Operands [left, right][index] [first, other][index] := by
    intro index hl _ hindex
    have hl : index < 2 := hl
    obtain rfl : index = 1 := by omega
    exact hright.simulates
  have hadmits : (Simulation.agreement False).Admits Eq [left, right].length (fun index => ¬ index = 0) _ :=
    Simulation.agreement_admits 2 (· = 0)
  have hlength : [left, right].length = [first, other].length := rfl
  exact Simulation.run hadmits hlength hoperands .unbounded plan ⟨hdiscreet, hspares⟩ (List.Subset.refl []) h

/-- A left-first behaviour may be given the value of its left operand instead of the operand. -/
theorem Behaviour.apply_ofValue (settings : Settings) (role name : String) (id : Nat)
    {behaviour : Behaviour} (hfirst : behaviour.LeftFirst) {left right other : Operand}
    (hright : right.Agrees other) {outcome : Outcome} {t : State}
    (h : Agree outcome (left.force none t)) :
    Agree
      (outcome.andThen fun value state =>
        behaviour.apply settings none role name [.ofValue id value, right] (state.resetForces id))
      (behaviour.apply settings none role name [left, other] t) := by
  unfold Behaviour.apply
  rcases h.inversion with ⟨value, s, u, rfl, hleft, hstate⟩ | ⟨failure, s, u, rfl, hleft, hstate⟩
  · have hstart : ((s.resetForces id).countForce id).Agrees u :=
      (hstate.resetForces_left id).countForce_left id
    cases behaviour with
    | eager plan =>
      simp only [Outcome.andThen, forceAll, Operand.ofValue, hleft]
      rcases (hright _ _ hstart).inversion with ⟨result, s, u, ha, hb, h⟩ | ⟨failure, s, u, ha, hb, h⟩
      · simp only [ha, hb]
        exact applyEager_agrees name _ h
      · simp only [ha, hb]
        exact .error failure h
    | lazy plan =>
      obtain ⟨next, hnext, hrun⟩ := hfirst settings
      have hran : (Simulation.agreement False).Ends Eq (Simulation.agreement False).Replies []
          ((plan settings 2).run [.ofValue id value, right] none (s.resetForces id))
          ((plan settings 2).run [left, other] none t) := by
        simp only [hrun, Plan.run, Operand.ofValue, List.getElem?_cons_zero, inside_none, hleft]
        exact Plan.run_spared (hnext value) hright hstart
      exact (Simulation.applyLazy_of_run role name hran).agree
  · cases behaviour with
    | eager plan =>
      simp only [Outcome.andThen, forceAll, hleft]
      exact .error failure hstate
    | lazy plan =>
      obtain ⟨next, hnext, hrun⟩ := hfirst settings
      simp only [Outcome.andThen, applyLazy, List.length_cons, List.length_nil, hrun]
      simp only [Plan.run, List.getElem?_cons_zero, inside_none, hleft]
      exact .error failure hstate

def Outcome.extended (settings : Settings) (id : Nat) (op : Operator) (outcome : Outcome)
    (step : Nat × Operand) : Outcome :=
  .located step.1 (outcome.andThen fun value state => applyStep settings none id op value step.2 state)

/-- The first operator of a run gives a failure of its left operand its own place. -/
theorem Outcome.extended_located (settings : Settings) (id : Nat) (op : Operator)
    (outcome : Outcome) (offset : Nat) (right : Operand) :
    Outcome.extended settings id op (.located offset outcome) (offset, right) =
      Outcome.extended settings id op outcome (offset, right) := by
  obtain ⟨result, state⟩ := outcome
  cases result with
  | ok value => rfl
  | error failure => exact Outcome.located_located offset offset (.error failure, state)

/-- Taking a run one operator further evaluates the operator on the run so far
and its next operand. -/
theorem Outcome.extended_agrees (settings : Settings) (id : Nat) {op : Operator}
    (hfirst : op.behaviour.LeftFirst) (offset : Nat) {left right other : Operand}
    (hright : right.Agrees other) {outcome : Outcome} {t : State}
    (h : Agree outcome (left.force none t)) :
    Agree (outcome.extended settings id op (offset, right))
      (Outcome.located offset
        (op.behaviour.apply settings none operatorRole op.symbol [left, other] t)) :=
  (Behaviour.apply_ofValue settings operatorRole op.symbol id hfirst hright h).located offset

/-- The steps of a run fold an outcome whose failure has a place. -/
theorem andThen_applySteps (settings : Settings) (id : Nat) (op : Operator) (offset : Nat)
    (steps : List (Nat × Operand)) (outcome : Outcome) :
    (Outcome.located offset outcome).andThen
        (fun value state => applySteps settings none id op value steps state) =
      steps.foldl (Outcome.extended settings id op) (.located offset outcome) := by
  induction steps generalizing offset outcome with
  | nil =>
    obtain ⟨result, state⟩ := outcome
    cases result <;> rfl
  | cons step steps ih =>
    rw [List.foldl_cons, Outcome.extended, ← ih]
    obtain ⟨result, state⟩ := outcome
    cases result with
    | ok value =>
      cases happlied : applyStep settings none id op value step.2 state with
      | mk result state =>
        cases result <;> simp only [Outcome.located, Outcome.andThen, applySteps, happlied]
    | error failure =>
      have hlocated := Outcome.located_located offset step.1 (.error failure, state)
      simp only [Outcome.located, Outcome.andThen] at hlocated ⊢
      rw [hlocated]

namespace Run

variable (settings : Settings)

/-- Later steps only follow the steps of the run. -/
theorem operands_append : (run : Run) → (later : List (Nat × Operand)) →
    run.operands settings later =
      ((run.operands settings []).1, (run.operands settings []).2 ++ later)
  | .pair .., _ => rfl
  | .extended run _ _, _ => by
    simp only [operands]
    rw [operands_append run _, operands_append run [_]]
    simp

/-- The first step of a run stands where its first operator does. -/
theorem exists_firstStep : (run : Run) → (later : List (Nat × Operand)) →
    ∃ right steps, (run.operands settings later).2 = (run.firstOffset, right) :: steps
  | .pair .., _ => ⟨_, _, rfl⟩
  | .extended run _ _, _ => exists_firstStep run _

end Run

def Run.folded (settings : Settings) (id : Nat) (op : Operator) (run : Run)
    (state : State) : Outcome :=
  (run.operands settings []).2.foldl (Outcome.extended settings id op)
    ((run.operands settings []).1.force none state)

theorem Node.force_chain (settings : Settings) (id : Nat) (label : String)
    (op : Operator) (run : Run) (state : State) :
    (Node.chain id label op run).force settings none state =
      run.folded settings (id + 1) op (state.countForce id) := by
  -- The first operator locates a failure of the first operand, and would do so in its own step.
  obtain ⟨right, steps, hsteps⟩ := run.exists_firstStep settings []
  have hfolded := andThen_applySteps settings (id + 1) op run.firstOffset
    ((run.firstOffset, right) :: steps)
    ((run.operands settings []).1.force none (state.countForce id))
  rw [List.foldl_cons, Outcome.extended_located, ← List.foldl_cons, ← hsteps] at hfolded
  rw [Run.folded, ← hfolded]
  simp only [Node.force, deeper]
  cases Outcome.located run.firstOffset ((run.operands settings []).1.force none
    (state.countForce id)) with
  | mk result state => cases result <;> rfl

/-- What a registry promises of its behaviours: they do not ask how often operands were forced, and
operators whose runs stay flat force their left operand once and first. -/
structure Registry.Keeps (registry : Registry) : Prop where
  operators : ∀ label op, registry.operator? label = some op → op.behaviour.Discreet
  functions : ∀ label f, registry.function? label = some f → f.behaviour.Discreet
  leftFirst : ∀ label op, registry.operator? label = some op → op.chainable = true →
    op.behaviour.LeftFirst

section

variable {registry : Registry} {settings : Settings}

theorem Operand.Agrees.ofNode {node : Node}
    (h : ∀ s t, State.Agrees s t →
      Agree (node.force settings none s) (node.plain.force settings none t)) :
    (node.operand settings).Agrees (node.plain.operand settings) := h

mutual
/-- A tree and its plain form have agreeing outcomes. -/
theorem Node.force_plain (hkeeps : registry.Keeps) : (node : Node) → node.IsFrom registry →
    ∀ s t, State.Agrees s t → Agree (node.force settings none s) (node.plain.force settings none t)
  | .constant id label value, _ => fun s t h => by
    simp only [Node.plain, Node.force]
    exact .ok value ((h.countForce_left id).countForce_right 0)
  | .reference id name offset, _ => fun s t h => by
    obtain ⟨environment, memory, forces, trail⟩ := s
    obtain ⟨_, _, counts, _⟩ := t
    obtain ⟨rfl, rfl, rfl⟩ := h
    simp only [Node.plain, Node.force]
    refine Agree.located ?_ offset
    exact ⟨rfl, rfl, rfl, rfl⟩
  | .operation id label op offset operands, hfrom => fun s t h => by
    obtain ⟨hop, hoperands⟩ := hfrom
    simp only [Node.plain, Node.force, deeper]
    refine Agree.located ?_ offset
    exact Behaviour.apply_agrees settings _ _ (hkeeps.operators label op hop)
      (operandsOf_plain hkeeps operands hoperands) ((h.countForce_left id).countForce_right 0)
  | .chain id label op run, hfrom => fun s t h => by
    obtain ⟨hop, hchainable, hrun⟩ := hfrom
    rw [Node.force_chain]
    exact Run.folded_plain hkeeps (id + 1) label op hop hchainable run hrun _ _
      (h.countForce_left id)
  | .call id label f offset arguments, hfrom => fun s t h => by
    obtain ⟨hf, harguments⟩ := hfrom
    simp only [Node.plain, Node.force, deeper, Node.length_plainAll]
    refine Agree.located ?_ offset
    refine Behaviour.apply_agrees settings _ _ (hkeeps.functions label f hf)
      (operandsOf_plain hkeeps arguments harguments) ?_
    have hcounted := (h.countForce_left id).countForce_right 0
    split
    · exact hcounted.leave _
    · exact hcounted
  | .hole _ _, hfrom => hfrom.elim
theorem operandsOf_plain (hkeeps : registry.Keeps) :
    (nodes : List Node) → Node.AllFrom registry nodes →
    List.Forall₂ (Simulation.agreement False).Operands (operandsOf settings nodes)
      (operandsOf settings (Node.plainAll nodes))
  | [], _ => .nil
  | node :: nodes, hfrom => by
    obtain ⟨hnode, hnodes⟩ := hfrom
    exact .cons (Operand.Agrees.ofNode (Node.force_plain hkeeps node hnode)).simulates
      (operandsOf_plain hkeeps nodes hnodes)
theorem Run.folded_plain (hkeeps : registry.Keeps) (id : Nat) (label : String) (op : Operator)
    (hop : registry.operator? label = some op) (hchainable : op.chainable = true) : (run : Run) →
    run.IsFrom registry → ∀ s t, State.Agrees s t →
      Agree (run.folded settings id op s) ((run.plain label op).force settings none t)
  | .pair left offset right, hfrom => fun s t h => by
    obtain ⟨hleft, hright⟩ := hfrom
    simp only [Run.plain, Node.force, deeper]
    exact Outcome.extended_agrees settings id (hkeeps.leftFirst label op hop hchainable) offset
      (.ofNode (Node.force_plain hkeeps right hright))
      (Node.force_plain hkeeps left hleft s (t.countForce 0) (h.countForce_right 0))
  | .extended run offset right, hfrom => fun s t h => by
    obtain ⟨hrun, hright⟩ := hfrom
    have hfolded := Run.folded_plain hkeeps id label op hop hchainable run hrun s (t.countForce 0)
      (h.countForce_right 0)
    rw [Run.folded, Run.operands, Run.operands_append, List.foldl_append]
    simp only [Run.plain, Node.force, deeper]
    exact Outcome.extended_agrees settings id (hkeeps.leftFirst label op hop hchainable) offset
      (.ofNode (Node.force_plain hkeeps right hright)) hfolded
end

end

end Formula
