import Formula.Proofs.Environment.SameCells
import Formula.Proofs.Evaluation.SimulationTree

/-! # Evaluation does not see the order of names

States whose environments hold the same cells, in whatever order of their names, are all the same to an
evaluation: it has the same result, failures included, and leaves such states again.
-/
namespace Formula

open Environment (SameBut)

/-- The states are the same but for the order in which the names of their cells are listed. -/
structure State.SameCells (s t : State) : Prop where
  environment : SameBut [] s.environment t.environment
  memory : s.memory = t.memory
  forces : s.forces = t.forces
  trail : s.trail = t.trail

inductive EndSame {α : Type} : Except Failure α × State → Except Failure α × State → Prop
  | of (result : Except Failure α) {s t : State} (h : s.SameCells t) : EndSame (result, s) (result, t)

namespace Simulation

def sameCells : Simulation where
  states _ := State.SameCells
  fine _ := True
  reports := Eq
  raises := Eq
  places := Eq
  ids := Eq
  offsets := Eq
  strays := True
  counts := True
  limited := True
  cuts := False
  leave h event := ⟨h.environment, h.memory, h.forces, congrArg (event :: ·) h.trail⟩
  count h hid := by
    subst hid
    exact ⟨h.environment, h.memory, congrArg (Array.modify · _ (· + 1)) h.forces, h.trail⟩
  reset h hid := by
    subst hid
    exact ⟨h.environment, h.memory, congrArg (Array.modify · _ fun _ => 0) h.forces, h.trail⟩
  forces _ h hid := by
    subst hid
    exact congrArg (Array.getD · _ 0) h.forces
  succ h := congrArg Nat.succ h
  hold _ h := h
  restore names h hinner :=
    ⟨SameBut.restore_save (fun name _ => h.environment.cell?_eq name) (hinner.environment.weaken names),
      hinner.memory, hinner.forces, hinner.trail⟩
  within h name := Failure.within_congr h name
  stray _ _ := rfl
  raised h := h
  located h hoffset := Failure.locate_congr h hoffset
  full _ := rfl

theorem sameCells_reads (held : List String) (name : String) : sameCells.Reads Eq held name := by
  intro s t h
  obtain ⟨result, first, second, hfirst, hsecond, hafter⟩ := h.environment.exists_read name
  have hstates : sameCells.states held { s with environment := first } { t with environment := second } :=
    ⟨hafter, h.memory, h.forces, h.trail⟩
  rw [hfirst, hsecond]
  cases result with
  | ok value => exact .ok trivial hstates
  | error failure => exact .error rfl hstates

theorem sameCells_admits (operands : Nat) :
    sameCells.Admits Eq operands (fun _ => True) fun _ _ => True where
  done _ := trivial
  stray _ := trivial
  fail _ := rfl
  operand _ := trivial
  force _ := ⟨trivial, fun _ _ => trivial⟩
  countForces _ := ⟨trivial, fun _ => ⟨trivial, fun _ => trivial⟩⟩
  missing _ _ := rfl
  placed _ _ _ h := h
  full _ := rfl
  read _ _ := ⟨sameCells_reads _ _, fun _ _ => trivial⟩
  bind _ _ := ⟨fun _ _ h =>
    ⟨(h.environment.weaken [_]).bind _, h.memory, h.forces, h.trail⟩, trivial⟩
  text _ := trivial
  log _ := trivial
  print _ := trivial
  retrieve _ := ⟨fun _ _ h => by rw [h.memory], fun _ => trivial⟩
  remember _ := ⟨fun _ _ h => ⟨h.environment, by rw [h.memory], h.forces, h.trail⟩, trivial⟩
  preserving _ := ⟨trivial, fun _ _ => trivial⟩
  catching _ := ⟨trivial, fun _ _ => trivial, id, fun _ _ h => ⟨h, trivial⟩⟩

theorem sameCells_behaves (settings : Settings) (operands : Nat) (behaviour : Behaviour) :
    sameCells.Behaves settings operands behaviour := by
  cases behaviour with
  | eager plan => exact fun _ _ _ => ⟨_, _, sameCells_admits 0, trivial⟩
  | lazy plan => exact ⟨_, _, sameCells_admits operands, trivial⟩

theorem Ends.endSame {α : Type} {good : α → Prop} {held : List String} {left right : Except Failure α × State}
    (h : sameCells.Ends Eq good held left right) : EndSame left right := by
  cases h with
  | cut h => exact h.elim
  | ok _ h => exact .of _ h
  | error hfailure h =>
    subst hfailure
    exact .of _ h

end Simulation

section Tree

variable (settings : Settings)

mutual
theorem Node.sameCells_self : (node : Node) → Simulation.sameCells.Nodes settings node node
  | .constant .. => .constant rfl trivial
  | .reference _ name _ => .reference rfl rfl fun held => Simulation.sameCells_reads held name
  | .operation _ _ op _ operands =>
    .operation rfl rfl (Simulation.sameCells_behaves settings _ op.behaviour) (Node.allSameCells_self operands)
  | .chain _ _ op run =>
    .chain rfl (Simulation.sameCells_behaves settings 2 op.behaviour) (Run.sameCells_self run)
  | .call _ _ f _ arguments =>
    .call rfl rfl (Simulation.sameCells_behaves settings _ f.behaviour) (Node.allSameCells_self arguments)
  | .hole .. => .hole rfl rfl
theorem Node.allSameCells_self : (nodes : List Node) → Simulation.sameCells.AllNodes settings nodes nodes
  | [] => .nil
  | node :: nodes => .cons (Node.sameCells_self node) (Node.allSameCells_self nodes)
theorem Run.sameCells_self : (run : Run) → Simulation.sameCells.Runs settings run run
  | .pair left _ right => .pair (Node.sameCells_self left) rfl (Node.sameCells_self right)
  | .extended run _ right => .extended (Run.sameCells_self run) rfl (Node.sameCells_self right)
end

/-- Whatever a tree does, it does not see the order of names. -/
theorem Node.force_endSame (node : Node) (room : Option Nat) ⦃s t : State⦄ (h : s.SameCells t) :
    EndSame (node.force settings room s) (node.force settings room t) := by
  have hstates : Simulation.sameCells.states [] s t := h
  exact (Simulation.force_ends (Node.sameCells_self settings node) (.inl ⟨rfl, fun _ => trivial⟩)
    hstates).endSame

end Tree

end Formula
