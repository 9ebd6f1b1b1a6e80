import Formula.Proofs.Environment.Cells
import Formula.Proofs.Evaluation.SimulationTree

/-! # Invariants of evaluation

A property of environments that reading, binding and putting back keep is kept by every tree whose plans
bind and end with values that are fine, given fine ones. It holds at every point of the way, so also
where an evaluation fails.
-/
namespace Formula

/-- Environments that are good stay so, where the values that are bound are fine; the values that are read
from them are fine again. -/
structure Invariant (good : Environment → Prop) (fine : Value → Prop) : Prop where
  bind : ∀ {env : Environment} {value : Value} (name : String), good env → fine value →
    good (env.bind name value)
  read : ∀ {env : Environment} (name : String), good env → good (env.read name).2
  value : ∀ {env : Environment} {name : String} {value : Value}, good env →
    (env.read name).1 = .ok value → fine value
  restore : ∀ {before after : Environment} (names : List String), good before → good after →
    good (after.restore (before.save names))
  boundTo : ∀ {value : Value} (name : String), fine value → fine (value.boundTo name)

inductive Leaves {α : Type} (good : Environment → Prop) (fine : α → Prop) :
    Except Failure α × State → Prop
  | ok {value : α} {state : State} (hvalue : fine value) (h : good state.environment) :
      Leaves good fine (.ok value, state)
  | error {failure : Failure} {state : State} (h : good state.environment) :
      Leaves good fine (.error failure, state)

def Forces (good : Environment → Prop) (fine : Value → Prop)
    (force : State → Except Failure Value × State) : Prop :=
  ∀ ⦃state⦄, good state.environment → Leaves good fine (force state)

def Plan.Gives (fine : Value → Prop) : Plan → Prop
  | .done value => fine value
  | .operand _ | .stray _ | .fail _ => True
  | .force _ next | .read _ next => ∀ ⦃value⦄, fine value → (next value).Gives fine
  | .countForces _ next => ∀ count, (next count).Gives fine
  | .bind name value next => fine value ∧ (next (value.boundTo name)).Gives fine
  | .text _ next => ∀ text, (next text).Gives fine
  | .log _ next | .print _ next | .remember _ _ next => next.Gives fine
  | .retrieve _ next => ∀ memory, (next memory).Gives fine
  | .preserving _ body next => body.Gives fine ∧ ∀ ⦃value⦄, fine value → (next value).Gives fine
  | .catching body next =>
    body.Gives fine ∧ (∀ ⦃value⦄, fine value → (next (.ok value)).Gives fine) ∧
      ∀ failure, (next (.error failure)).Gives fine

def Behaviour.Gives (settings : Settings) (fine : Value → Prop) : Behaviour → Prop
  | .eager plan => ∀ ⦃values⦄, (∀ value ∈ values, fine value) → (plan settings values).Gives fine
  | .lazy plan => ∀ operands, (plan settings operands).Gives fine

mutual
def Node.Gives (settings : Settings) (fine : Value → Prop) : Node → Prop
  | .constant _ _ value => fine value
  | .reference .. | .hole .. => True
  | .operation _ _ op _ operands => op.behaviour.Gives settings fine ∧ Node.AllGive settings fine operands
  | .chain _ _ op run => op.behaviour.Gives settings fine ∧ run.Gives settings fine
  | .call _ _ f _ arguments => f.behaviour.Gives settings fine ∧ Node.AllGive settings fine arguments
def Node.AllGive (settings : Settings) (fine : Value → Prop) : List Node → Prop
  | [] => True
  | node :: nodes => node.Gives settings fine ∧ Node.AllGive settings fine nodes
def Run.Gives (settings : Settings) (fine : Value → Prop) : Run → Prop
  | .pair left _ right => left.Gives settings fine ∧ right.Gives settings fine
  | .extended run _ right => run.Gives settings fine ∧ right.Gives settings fine
end

/-- Of values of which nothing is asked every plan is given all it needs. -/
theorem Plan.gives_trivially (plan : Plan) : plan.Gives fun _ => True := by
  induction plan with
  | done | operand | stray | fail => trivial
  | force index next ih | read name next ih => exact fun value _ => ih value
  | countForces index next ih | text value next ih => exact ih
  | bind name value next ih => exact ⟨trivial, ih _⟩
  | log line next ih | print line next ih | remember name value next ih => exact ih
  | retrieve name next ih => exact ih
  | preserving names body next ihBody ihNext => exact ⟨ihBody, fun value _ => ihNext value⟩
  | catching body next ihBody ihNext =>
    exact ⟨ihBody, fun value _ => ihNext (.ok value), fun failure => ihNext (.error failure)⟩

theorem Behaviour.gives_trivially (settings : Settings) (behaviour : Behaviour) :
    behaviour.Gives settings fun _ => True := by
  cases behaviour with
  | eager plan => exact fun _ _ => Plan.gives_trivially _
  | lazy plan => exact fun _ => Plan.gives_trivially _

mutual
theorem Node.gives_trivially (settings : Settings) : (node : Node) → node.Gives settings fun _ => True
  | .constant .. | .reference .. | .hole .. => trivial
  | .operation _ _ op _ operands =>
    ⟨op.behaviour.gives_trivially settings, Node.allGive_trivially settings operands⟩
  | .chain _ _ op run => ⟨op.behaviour.gives_trivially settings, run.gives_trivially settings⟩
  | .call _ _ f _ arguments =>
    ⟨f.behaviour.gives_trivially settings, Node.allGive_trivially settings arguments⟩
theorem Node.allGive_trivially (settings : Settings) :
    (nodes : List Node) → Node.AllGive settings (fun _ => True) nodes
  | [] => trivial
  | node :: nodes => ⟨node.gives_trivially settings, Node.allGive_trivially settings nodes⟩
theorem Run.gives_trivially (settings : Settings) : (run : Run) → run.Gives settings fun _ => True
  | .extended run _ right => ⟨run.gives_trivially settings, right.gives_trivially settings⟩
  | .pair left _ right => ⟨left.gives_trivially settings, right.gives_trivially settings⟩
end

variable {good : Environment → Prop} {fine : Value → Prop}

namespace Leaves

variable {α : Type} {P : α → Prop} {outcome : Except Failure α × State}

theorem environment (h : Leaves good P outcome) : good outcome.2.environment := by
  cases h with
  | ok _ h => exact h
  | error h => exact h

theorem of_ok {a : α} (h : Leaves good P outcome) (hresult : outcome.1 = .ok a) : P a := by
  cases h with
  | ok hvalue _ =>
    obtain rfl := Except.ok.inj hresult
    exact hvalue
  | error _ => cases hresult

end Leaves

namespace Simulation

/-- An evaluation beside itself, in environments that are good. -/
def keeping (hinvariant : Invariant good fine) : Simulation where
  states _ s t := s = t ∧ good s.environment
  fine := fine
  reports := Eq
  raises := Eq
  places := Eq
  ids := Eq
  offsets := Eq
  strays := True
  counts := True
  limited := True
  cuts := False
  leave h event := ⟨congrArg (State.leave · event) h.1, h.2⟩
  count h hid := ⟨by rw [h.1, hid], h.2⟩
  reset h hid := ⟨by rw [h.1, hid], h.2⟩
  forces _ h hid := by rw [h.1, hid]
  succ h := congrArg Nat.succ h
  hold _ h := h
  restore names h hinner := ⟨by rw [h.1, hinner.1], hinvariant.restore names h.2 hinner.2⟩
  within h name := Failure.within_congr h name
  stray _ _ := rfl
  raised h := h
  located h hoffset := Failure.locate_congr h hoffset
  full _ := rfl

variable (hinvariant : Invariant good fine)

theorem keeping_reads (held : List String) (name : String) : (keeping hinvariant).Reads Eq held name := by
  rintro state _ ⟨rfl, hgood⟩
  have hread : (keeping hinvariant).states held { state with environment := (state.environment.read name).2 }
      { state with environment := (state.environment.read name).2 } := ⟨rfl, hinvariant.read name hgood⟩
  have hvalue := fun value => @hinvariant.value state.environment name value hgood
  generalize state.environment.read name = outcome at hread hvalue
  obtain ⟨result, after⟩ := outcome
  cases result with
  | ok value => exact .ok (hvalue value rfl) hread
  | error failure => exact .error rfl hread

theorem keeping_admits (operands : Nat) :
    (keeping hinvariant).Admits Eq operands (fun _ => True) fun _ plan => plan.Gives fine where
  done h := h
  stray _ := trivial
  fail _ := rfl
  operand _ := trivial
  force h := ⟨trivial, h⟩
  countForces h := ⟨trivial, fun _ => ⟨trivial, h⟩⟩
  missing _ _ := rfl
  placed _ _ _ h := h
  full _ := rfl
  read h _ := ⟨keeping_reads hinvariant _ _, h⟩
  bind h _ := ⟨fun _ _ hstates => ⟨by rw [hstates.1], hinvariant.bind _ hstates.2 h.1⟩, h.2⟩
  text h := h _
  log h := h
  print h := h
  retrieve h := ⟨fun _ _ hstates => by rw [hstates.1], h⟩
  remember h := ⟨fun _ _ hstates => ⟨by rw [hstates.1], hstates.2⟩, h⟩
  preserving h := h
  catching h := ⟨h.1, h.2.1, id, fun _ _ hsame => ⟨hsame, h.2.2 _⟩⟩

theorem keeping_behaves {settings : Settings} (operands : Nat) {behaviour : Behaviour}
    (h : behaviour.Gives settings fine) : (keeping hinvariant).Behaves settings operands behaviour := by
  cases behaviour with
  | eager plan => exact fun _ _ hvalues => ⟨_, _, keeping_admits hinvariant 0, h hvalues⟩
  | lazy plan => exact ⟨_, _, keeping_admits hinvariant operands, h operands⟩

theorem Ends.leaves {hinvariant : Invariant good fine} {α : Type} {P : α → Prop} {held : List String}
    {left right : Except Failure α × State} (h : (keeping hinvariant).Ends Eq P held left right) :
    Leaves good P left := by
  cases h with
  | cut h => exact h.elim
  | ok hvalue h => exact .ok hvalue h.2
  | error _ h => exact .error h.2

end Simulation

section Tree

variable (settings : Settings) (hinvariant : Invariant good fine)

mutual
theorem Node.keeping_self : (node : Node) → node.Gives settings fine →
    (Simulation.keeping hinvariant).Nodes settings node node
  | .constant .., hvalue => .constant rfl hvalue
  | .reference _ name _, _ => .reference rfl rfl fun held => Simulation.keeping_reads hinvariant held name
  | .operation _ _ _ _ operands, h =>
    .operation rfl rfl (Simulation.keeping_behaves hinvariant _ h.1) (Node.allKeeping_self operands h.2)
  | .chain _ _ _ run, h => .chain rfl (Simulation.keeping_behaves hinvariant 2 h.1) (Run.keeping_self run h.2)
  | .call _ _ _ _ arguments, h =>
    .call rfl rfl (Simulation.keeping_behaves hinvariant _ h.1) (Node.allKeeping_self arguments h.2)
  | .hole .., _ => .hole rfl rfl
theorem Node.allKeeping_self : (nodes : List Node) → Node.AllGive settings fine nodes →
    (Simulation.keeping hinvariant).AllNodes settings nodes nodes
  | [], _ => .nil
  | node :: nodes, h => .cons (Node.keeping_self node h.1) (Node.allKeeping_self nodes h.2)
theorem Run.keeping_self : (run : Run) → run.Gives settings fine →
    (Simulation.keeping hinvariant).Runs settings run run
  | .pair left _ right, h => .pair (Node.keeping_self left h.1) rfl (Node.keeping_self right h.2)
  | .extended run _ right, h => .extended (Run.keeping_self run h.1) rfl (Node.keeping_self right h.2)
end

include hinvariant

/-- Forcing a node keeps the invariant. -/
theorem Node.force_leaves (node : Node) (hnode : node.Gives settings fine) (room : Option Nat) :
    Forces good fine (node.force settings room) := by
  intro state h
  have hstates : (Simulation.keeping hinvariant).states [] state state := ⟨rfl, h⟩
  exact (Simulation.force_ends (node.keeping_self settings hinvariant hnode) (.inl ⟨rfl, fun _ => trivial⟩)
    hstates).leaves

/-- Evaluating a tree keeps the invariant, whether it ends with a value or not. -/
theorem Tree.evaluate_leaves {tree : Tree} (htree : tree.root.Gives settings fine) :
    Forces good fine (tree.evaluate settings) := by
  intro state h
  have hforced := Node.force_leaves settings hinvariant tree.root htree settings.machine.frames h
  unfold Tree.evaluate
  generalize tree.root.force settings settings.machine.frames state = outcome at hforced
  cases hforced with
  | ok hvalue h => exact .ok hvalue h
  | @error failure _ h =>
    split
    next heq =>
      obtain ⟨-, rfl⟩ := Prod.mk.inj heq
      exact .error h
    next => exact .error h

end Tree

end Formula
