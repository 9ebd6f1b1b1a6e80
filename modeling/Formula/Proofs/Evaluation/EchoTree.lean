import Formula.Proofs.Evaluation.Echo
import Formula.Proofs.Tree.Places

/-! # Trees echo each other

Trees that differ in places and numbers only do the same, also where one has less room on the stack than the
other. Only there may it be cut off.
-/
namespace Formula

variable {limited : Prop} {older : List Event} {s t : State}

theorem Node.length_unplacedAll (nodes : List Node) :
    (Node.unplacedAll nodes).length = nodes.length := by
  induction nodes with
  | nil => rfl
  | cons node nodes ih => simp [Node.unplacedAll, ih]

mutual
def Node.Direct : Node → Prop
  | .constant .. | .reference .. | .hole .. => True
  | .operation _ _ op _ operands => op.behaviour.Direct operands.length ∧ Node.AllDirect operands
  | .chain _ _ op run => op.behaviour.Direct 2 ∧ run.Direct
  | .call _ _ f _ arguments => f.behaviour.Direct arguments.length ∧ Node.AllDirect arguments
def Node.AllDirect : List Node → Prop
  | [] => True
  | node :: nodes => node.Direct ∧ Node.AllDirect nodes
def Run.Direct : Run → Prop
  | .pair left _ right => left.Direct ∧ right.Direct
  | .extended run _ right => run.Direct ∧ right.Direct
end

mutual
theorem Node.Confined.direct {names : List String} {bound : Nat} :
    {node : Node} → node.Confined names bound → node.Direct
  | .constant .., _ | .reference .., _ => trivial
  | .operation .., h => ⟨h.1.direct, Node.AllConfined.direct h.2.2⟩
  | .chain .., h => ⟨h.1.direct, Run.Confined.direct h.2⟩
  | .call .., h => ⟨h.1.direct, Node.AllConfined.direct h.2.2⟩
  | .hole .., h => h.elim
theorem Node.AllConfined.direct {names : List String} {bound : Nat} :
    {nodes : List Node} → Node.AllConfined names bound nodes → Node.AllDirect nodes
  | [], _ => trivial
  | _ :: _, h => ⟨Node.Confined.direct h.1, Node.AllConfined.direct h.2⟩
theorem Run.Confined.direct {names : List String} {bound : Nat} :
    {run : Run} → run.Confined names bound → run.Direct
  | .pair .., h => ⟨Node.Confined.direct h.1, Node.Confined.direct h.2.2⟩
  | .extended .., h => ⟨Run.Confined.direct h.1, Node.Confined.direct h.2.2⟩
end

mutual
/-- Being direct is no matter of places and numbers. -/
theorem Node.direct_unplaced : (node : Node) → (node.unplaced.Direct ↔ node.Direct)
  | .constant .. | .reference .. | .hole .. => Iff.rfl
  | .operation _ _ _ _ operands => by
    simp only [Node.unplaced, Node.Direct, Node.length_unplacedAll, Node.allDirect_unplaced operands]
  | .chain _ _ _ run => by
    simp only [Node.unplaced, Node.Direct, run.direct_unplaced]
  | .call _ _ _ _ arguments => by
    simp only [Node.unplaced, Node.Direct, Node.length_unplacedAll, Node.allDirect_unplaced arguments]
theorem Node.allDirect_unplaced :
    (nodes : List Node) → (Node.AllDirect (Node.unplacedAll nodes) ↔ Node.AllDirect nodes)
  | [] => Iff.rfl
  | node :: nodes => by
    simp only [Node.unplacedAll, Node.AllDirect, node.direct_unplaced, Node.allDirect_unplaced nodes]
theorem Run.direct_unplaced : (run : Run) → (run.unplaced.Direct ↔ run.Direct)
  | .pair left _ right => by
    simp only [Run.unplaced, Run.Direct, left.direct_unplaced, right.direct_unplaced]
  | .extended run _ right => by
    simp only [Run.unplaced, Run.Direct, run.direct_unplaced, right.direct_unplaced]
end

namespace Simulation

theorem Rooms.same (room : Option Nat) : (echoing limited older).Rooms room room :=
  .inl ⟨rfl, fun _ => trivial⟩

theorem Rooms.of_narrower {room further : Option Nat} (h : Narrower room further)
    (hlimited : room.isSome = true → limited) : (echoing limited older).Rooms room further := by
  cases room with
  | none =>
    cases further with
    | none => exact .same none
    | some bound =>
      obtain ⟨_, hnone, -⟩ := h bound rfl
      cases hnone
  | some room => exact .inr ⟨hlimited rfl, h⟩

end Simulation

section Nodes

variable (settings : Settings)

mutual
theorem Node.echoing_of_unplaced : (node : Node) → node.Direct → (other : Node) →
    node.unplaced = other.unplaced → (Simulation.echoing limited older).Nodes settings node other
  | .constant id label value, _, other, hother => by
    cases other with
    | constant =>
      simp only [Node.unplaced, Node.constant.injEq] at hother
      obtain ⟨-, -, rfl⟩ := hother
      exact .constant trivial trivial
    | _ => simp [Node.unplaced] at hother
  | .reference id name offset, _, other, hother => by
    cases other with
    | reference =>
      simp only [Node.unplaced, Node.reference.injEq] at hother
      obtain ⟨-, rfl, -⟩ := hother
      exact .reference trivial trivial fun held => Simulation.echoing_reads held _
    | _ => simp [Node.unplaced] at hother
  | .operation id label op offset operands, hnode, other, hother => by
    cases other with
    | operation =>
      simp only [Node.unplaced, Node.operation.injEq] at hother
      obtain ⟨-, -, rfl, -, hoperands⟩ := hother
      exact .operation trivial trivial (Simulation.echoing_behaves settings hnode.1)
        (Node.allEchoing_of_unplaced operands hnode.2 _ hoperands)
    | _ => simp [Node.unplaced] at hother
  | .chain id label op run, hnode, other, hother => by
    cases other with
    | chain =>
      simp only [Node.unplaced, Node.chain.injEq] at hother
      obtain ⟨-, -, rfl, hrun⟩ := hother
      exact .chain trivial (Simulation.echoing_behaves settings hnode.1)
        (Run.echoing_of_unplaced run hnode.2 _ hrun)
    | _ => simp [Node.unplaced] at hother
  | .call id label f offset arguments, hnode, other, hother => by
    cases other with
    | call =>
      simp only [Node.unplaced, Node.call.injEq] at hother
      obtain ⟨-, -, rfl, -, harguments⟩ := hother
      exact .call trivial trivial (Simulation.echoing_behaves settings hnode.1)
        (Node.allEchoing_of_unplaced arguments hnode.2 _ harguments)
    | _ => simp [Node.unplaced] at hother
  | .hole id label, _, other, hother => by
    cases other with
    | hole => exact .hole trivial rfl
    | _ => simp [Node.unplaced] at hother
theorem Node.allEchoing_of_unplaced : (nodes : List Node) → Node.AllDirect nodes →
    (others : List Node) → Node.unplacedAll nodes = Node.unplacedAll others →
      (Simulation.echoing limited older).AllNodes settings nodes others
  | [], _, others, hothers => by
    cases others with
    | nil => exact .nil
    | cons => simp [Node.unplacedAll] at hothers
  | node :: nodes, hnodes, others, hothers => by
    cases others with
    | nil => simp [Node.unplacedAll] at hothers
    | cons other others =>
      simp only [Node.unplacedAll, List.cons.injEq] at hothers
      exact .cons (Node.echoing_of_unplaced node hnodes.1 other hothers.1)
        (Node.allEchoing_of_unplaced nodes hnodes.2 others hothers.2)
theorem Run.echoing_of_unplaced : (run : Run) → run.Direct → (other : Run) →
    run.unplaced = other.unplaced → (Simulation.echoing limited older).Runs settings run other
  | .pair left _ right, hrun, other, hother => by
    cases other with
    | pair =>
      simp only [Run.unplaced, Run.pair.injEq] at hother
      exact .pair (Node.echoing_of_unplaced left hrun.1 _ hother.1) trivial
        (Node.echoing_of_unplaced right hrun.2 _ hother.2.2)
    | extended => simp [Run.unplaced] at hother
  | .extended run _ right, hrun, other, hother => by
    cases other with
    | pair => simp [Run.unplaced] at hother
    | extended =>
      simp only [Run.unplaced, Run.extended.injEq] at hother
      exact .extended (Run.echoing_of_unplaced run hrun.1 _ hother.1) trivial
        (Node.echoing_of_unplaced right hrun.2 _ hother.2.2)
end

variable {settings}

/-- A direct tree echoes every tree that differs from it in places and numbers only and is given no less
room. If it has less, there are limits. -/
theorem Node.force_echoes {node other : Node} (hnode : node.Direct) (hother : node.unplaced = other.unplaced)
    {room further : Option Nat} (hrooms : (Simulation.echoing limited older).Rooms room further)
    (h : s.Echoes older t) :
    Echoes limited older (node.force settings room s) (other.force settings further t) := by
  have hstates : (Simulation.echoing limited older).states [] s t := h
  exact (Simulation.force_ends (Node.echoing_of_unplaced settings node hnode other hother) hrooms
    hstates).echoes

end Nodes

end Formula
