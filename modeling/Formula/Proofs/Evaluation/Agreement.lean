import Formula.Proofs.Evaluation.Simulation

/-! # Agreement of evaluations

Two states agree if they differ at most in how often nodes were forced. Behaviours that do not ask
for these counts cannot tell agreeing states or agreeing operands apart: their outcomes agree as
well, failures included.
-/
namespace Formula

/-- The states differ at most in how often nodes were forced. -/
structure State.Agrees (s t : State) : Prop where
  environment : s.environment = t.environment
  memory : s.memory = t.memory
  trail : s.trail = t.trail

namespace State.Agrees

variable {s t u : State}

theorem refl (s : State) : s.Agrees s := ⟨rfl, rfl, rfl⟩

theorem trans (h : s.Agrees t) (k : t.Agrees u) : s.Agrees u :=
  ⟨h.environment.trans k.environment, h.memory.trans k.memory, h.trail.trans k.trail⟩

theorem countForce_left (h : s.Agrees t) (id : Nat) : (s.countForce id).Agrees t :=
  ⟨h.environment, h.memory, h.trail⟩

theorem countForce_right (h : s.Agrees t) (id : Nat) : s.Agrees (t.countForce id) :=
  ⟨h.environment, h.memory, h.trail⟩

theorem resetForces_left (h : s.Agrees t) (id : Nat) : (s.resetForces id).Agrees t :=
  ⟨h.environment, h.memory, h.trail⟩

theorem leave (h : s.Agrees t) (event : Event) : (s.leave event).Agrees (t.leave event) :=
  ⟨h.environment, h.memory, congrArg (event :: ·) h.trail⟩

end State.Agrees

def Agree {α : Type} (left right : Except Failure α × State) : Prop :=
  left.1 = right.1 ∧ left.2.Agrees right.2

namespace Agree

variable {α : Type} {left right : Except Failure α × State}

theorem ok (value : α) {s t : State} (h : s.Agrees t) :
    Agree (.ok value, s) (.ok value, t) := ⟨rfl, h⟩

theorem error (failure : Failure) {s t : State} (h : s.Agrees t) :
    Agree ((.error failure, s) : Except Failure α × State) (.error failure, t) := ⟨rfl, h⟩

/-- Both sides have a value, or both have a failure. -/
theorem inversion (h : Agree left right) :
    (∃ value s t, left = (.ok value, s) ∧ right = (.ok value, t) ∧ s.Agrees t) ∨
      (∃ failure s t, left = (.error failure, s) ∧ right = (.error failure, t) ∧ s.Agrees t) := by
  obtain ⟨result, s⟩ := left
  obtain ⟨_, t⟩ := right
  obtain ⟨rfl, h⟩ := h
  cases result with
  | ok value => exact .inl ⟨value, s, t, rfl, rfl, h⟩
  | error failure => exact .inr ⟨failure, s, t, rfl, rfl, h⟩

theorem located {left right : Outcome} (h : Agree left right) (offset : Nat) :
    Agree (Outcome.located offset left) (Outcome.located offset right) := by
  rcases h.inversion with ⟨value, s, t, rfl, rfl, hst⟩ | ⟨failure, s, t, rfl, rfl, hst⟩
  · exact .ok value hst
  · exact .error _ hst

end Agree

/-- A failure has its place once it was located. -/
theorem Outcome.located_located (offset other : Nat) (outcome : Outcome) :
    Outcome.located other (Outcome.located offset outcome) = Outcome.located offset outcome := by
  obtain ⟨result, state⟩ := outcome
  cases result with
  | ok value => rfl
  | error failure =>
    cases failure with
    | expression cause place => cases place <;> rfl
    | _ => rfl

namespace Plan

def Discreet (operands : Nat) : Plan → Prop
  | .done _ | .operand _ | .stray _ | .fail _ => True
  | .force _ next | .read _ next | .bind _ _ next => ∀ value, (next value).Discreet operands
  | .countForces index _ => operands ≤ index
  | .text _ next => ∀ text, (next text).Discreet operands
  | .log _ next | .print _ next | .remember _ _ next => next.Discreet operands
  | .retrieve _ next => ∀ memory, (next memory).Discreet operands
  | .preserving _ body next => body.Discreet operands ∧ ∀ value, (next value).Discreet operands
  | .catching body next => body.Discreet operands ∧ ∀ result, (next result).Discreet operands

def Spares (index : Nat) : Plan → Prop
  | .done _ | .stray _ | .fail _ => True
  | .operand other => other ≠ index
  | .force other next => other ≠ index ∧ ∀ value, (next value).Spares index
  | .countForces other next => other ≠ index ∧ ∀ count, (next count).Spares index
  | .read _ next | .bind _ _ next => ∀ value, (next value).Spares index
  | .text _ next => ∀ text, (next text).Spares index
  | .log _ next | .print _ next | .remember _ _ next => next.Spares index
  | .retrieve _ next => ∀ memory, (next memory).Spares index
  | .preserving _ body next => body.Spares index ∧ ∀ value, (next value).Spares index
  | .catching body next => body.Spares index ∧ ∀ result, (next result).Spares index

/-- Without operands there is nothing to ask about. -/
theorem discreet_zero (plan : Plan) : plan.Discreet 0 := by
  induction plan with
  | done | operand | stray | fail => trivial
  | force _ _ ih | read _ _ ih | bind _ _ _ ih | retrieve _ _ ih | text _ _ ih => exact ih
  | countForces index _ _ => exact Nat.zero_le index
  | log _ _ ih | print _ _ ih | remember _ _ _ ih => exact ih
  | preserving _ _ _ ihBody ihNext | catching _ _ ihBody ihNext => exact ⟨ihBody, ihNext⟩

end Plan

def Behaviour.Discreet : Behaviour → Prop
  | .eager _ => True
  | .lazy plan => ∀ settings operands, (plan settings operands).Discreet operands

@[simp] theorem Behaviour.discreet_eager (plan : Settings → List Value → Plan) :
    (Behaviour.eager plan).Discreet := trivial

namespace Simulation

/-- Agreeing states stay so, whatever the numbers of the nodes are. The stacks may be full where they are
`limited`. -/
def agreement (limited : Prop) : Simulation where
  states _ := State.Agrees
  fine _ := True
  reports := Eq
  raises := Eq
  places := Eq
  ids _ _ := True
  offsets := Eq
  strays := True
  counts := False
  limited := limited
  cuts := False
  leave h := h.leave
  count h _ := (h.countForce_left _).countForce_right _
  reset h _ := ⟨h.environment, h.memory, h.trail⟩
  forces hcounts := hcounts.elim
  succ h := h
  hold _ h := h
  restore names h hinner :=
    ⟨by rw [hinner.environment, h.environment], hinner.memory, hinner.trail⟩
  within h name := Failure.within_congr h name
  stray _ _ := rfl
  raised h := h
  located h hoffset := Failure.locate_congr h hoffset
  full _ := rfl

variable {limited : Prop}

theorem agreement_reads (held : List String) (name : String) :
    (agreement limited).Reads Eq held name := by
  intro s t h
  have hafter : State.Agrees { s with environment := (s.environment.read name).2 }
      { t with environment := (t.environment.read name).2 } :=
    ⟨by rw [h.environment], h.memory, h.trail⟩
  rw [h.environment] at hafter ⊢
  cases (t.environment.read name).1 with
  | ok value => exact .ok trivial hafter
  | error failure => exact .error rfl hafter

/-- Discreet plans that look only at the operands they ask for keep the agreement. -/
theorem agreement_admits (operands : Nat) (spared : Nat → Prop) :
    (agreement limited).Admits Eq operands (fun index => ¬ spared index) fun _ plan =>
      plan.Discreet operands ∧ ∀ index, spared index → plan.Spares index where
  done _ := trivial
  stray _ := trivial
  fail _ := rfl
  operand h hspared := h.2 _ hspared rfl
  force h := ⟨fun hspared => (h.2 _ hspared).1 rfl, fun value _ =>
    ⟨h.1 value, fun index hspared => (h.2 index hspared).2 value⟩⟩
  countForces h := ⟨fun hspared => (h.2 _ hspared).1 rfl, fun hindex => (Nat.not_lt_of_ge h.1 hindex).elim⟩
  missing _ _ := rfl
  placed _ _ _ h := h
  full _ := rfl
  read h _ := ⟨agreement_reads _ _, fun value _ => ⟨h.1 value, fun index hspared => h.2 index hspared value⟩⟩
  bind h _ := ⟨fun _ _ hst => ⟨by rw [hst.environment], hst.memory, hst.trail⟩,
    h.1 _, fun index hspared => h.2 index hspared _⟩
  text h := ⟨h.1 _, fun index hspared => h.2 index hspared _⟩
  log h := h
  print h := h
  retrieve h := ⟨fun _ _ hst => by rw [hst.memory], fun memory =>
    ⟨h.1 memory, fun index hspared => h.2 index hspared memory⟩⟩
  remember h := ⟨fun _ _ hst => ⟨hst.environment, by rw [hst.memory], hst.trail⟩, h⟩
  preserving h := ⟨⟨h.1.1, fun index hspared => (h.2 index hspared).1⟩, fun value _ =>
    ⟨h.1.2 value, fun index hspared => (h.2 index hspared).2 value⟩⟩
  catching h := ⟨⟨h.1.1, fun index hspared => (h.2 index hspared).1⟩,
    fun value _ => ⟨h.1.2 _, fun index hspared => (h.2 index hspared).2 _⟩, id, fun failure _ hsame =>
      ⟨hsame, h.1.2 _, fun index hspared => (h.2 index hspared).2 _⟩⟩

theorem agreement_keeps {operands : Nat} {plan : Plan} (h : plan.Discreet operands) :
    (agreement limited).Keeps Eq operands plan :=
  ⟨_, _, agreement_admits operands fun _ => False, h, fun _ hspared => hspared.elim⟩

/-- Discreet behaviours keep the agreement. -/
theorem agreement_behaves {settings : Settings} {operands : Nat} {behaviour : Behaviour}
    (h : behaviour.Discreet) : (agreement limited).Behaves settings operands behaviour := by
  cases behaviour with
  | eager plan => exact fun values _ _ => agreement_keeps (plan settings values).discreet_zero
  | lazy plan => exact agreement_keeps (h settings operands)

theorem Ends.agree {α : Type} {good : α → Prop} {held : List String} {left right : Except Failure α × State}
    (h : (agreement limited).Ends Eq good held left right) : Agree left right := by
  cases h with
  | cut h => exact h.elim
  | ok _ h => exact .ok _ h
  | error hfailure h =>
    subst hfailure
    exact .error _ h

end Simulation

theorem Agree.ends {limited : Prop} {α : Type} {left right : Except Failure α × State}
    (h : Agree left right) (held : List String) :
    (Simulation.agreement limited).Ends Eq (fun _ => True) held left right := by
  rcases h.inversion with ⟨value, s, t, rfl, rfl, hst⟩ | ⟨failure, s, t, rfl, rfl, hst⟩
  · exact .ok trivial hst
  · exact .error rfl hst

def Operand.Agrees (left right : Operand) : Prop :=
  ∀ s t : State, s.Agrees t → Agree (left.force none s) (right.force none t)

theorem Operand.Agrees.simulates {left right : Operand} (h : left.Agrees right) :
    (Simulation.agreement False).Operands left right where
  force room further hrooms held s t hst := by
    obtain ⟨rfl, hnone⟩ | ⟨hcuts, -⟩ := hrooms
    · obtain rfl : room = none := Option.not_isSome_iff_eq_none.mp hnone
      exact (h s t hst).ends held
    · exact hcuts.elim
  forces hcounts := hcounts.elim

theorem applyEager_agrees (name : String) (plan : Plan) {s t : State} (h : s.Agrees t) :
    Agree (applyEager none name plan s) (applyEager none name plan t) := by
  have hstates : (Simulation.agreement False).states [] s t := h
  exact (Simulation.applyEager_ends name (Simulation.agreement_keeps plan.discreet_zero) .unbounded
    hstates).agree

/-- Discreet behaviours have agreeing outcomes on operands that agree. -/
theorem Behaviour.apply_agrees (settings : Settings) (role name : String) {behaviour : Behaviour}
    (hdiscreet : behaviour.Discreet) {left right : List Operand}
    (hoperands : List.Forall₂ (Simulation.agreement False).Operands left right) {s t : State}
    (h : s.Agrees t) :
    Agree (behaviour.apply settings none role name left s)
      (behaviour.apply settings none role name right t) := by
  have hstates : (Simulation.agreement False).states [] s t := h
  exact (Simulation.apply_ends role name (Simulation.agreement_behaves hdiscreet) hoperands .unbounded
    hstates).agree

end Formula
