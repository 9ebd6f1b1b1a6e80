import Formula.Proofs.Evaluation.Confinement
import Formula.Proofs.Evaluation.SimulationTree
import Formula.Proofs.Tree.Plain
import Formula.Rpn

/-! # Confined trees

A tree whose references are among some names, and whose behaviours are confined whatever the names, is
confined to them: what it reads, what it writes, and which values it passes on. Every failure is located
by the node it passes first, unless the limit on nesting stops the evaluation.
-/
namespace Formula

variable {names : List String} {bound : Nat} {limited : Bool} {s t : State}

def Function.Confined (f : Function) : Prop :=
  ∀ count : Nat, (f.variadic = false → (count : Int) = f.arity) → f.behaviour.Confined count

/-- Operators and functions are confined on as many operands as they take, and the product that may
join neighbours takes two. -/
structure Registry.Confined (registry : Registry) : Prop where
  operators : ∀ ⦃surface op⦄, registry.operator? surface = some op →
    op.behaviour.Confined (if op.unary then 1 else 2)
  functions : ∀ ⦃name f⦄, registry.function? name = some f → f.Confined
  product : ∀ op, registry.operator? Rpn.productSymbol = some op → op.unary = false

mutual
def Node.Confined (names : List String) (bound : Nat) : Node → Prop
  | .constant _ _ value => value.Within names
  | .reference _ name offset => name ∈ names ∧ offset < bound
  | .operation _ _ op offset operands =>
    op.behaviour.Confined operands.length ∧ offset < bound ∧ Node.AllConfined names bound operands
  | .chain _ _ op run => op.behaviour.Confined 2 ∧ run.Confined names bound
  | .call _ _ f offset arguments =>
    f.behaviour.Confined arguments.length ∧ offset < bound ∧ Node.AllConfined names bound arguments
  | .hole .. => False
def Node.AllConfined (names : List String) (bound : Nat) : List Node → Prop
  | [] => True
  | node :: nodes => node.Confined names bound ∧ Node.AllConfined names bound nodes
def Run.Confined (names : List String) (bound : Nat) : Run → Prop
  | .pair left offset right =>
    left.Confined names bound ∧ offset < bound ∧ right.Confined names bound
  | .extended run offset right =>
    run.Confined names bound ∧ offset < bound ∧ right.Confined names bound
end

mutual
/-- Taking runs apart confines nothing that was not confined. -/
theorem Node.confined_of_plain : (node : Node) → node.plain.Confined names bound →
    node.Confined names bound
  | .constant .., h => h
  | .reference .., h => h
  | .operation _ _ op _ operands, h => by
    obtain ⟨hop, hoffset, hoperands⟩ := h
    rw [Node.length_plainAll] at hop
    exact ⟨hop, hoffset, Node.allConfined_of_plain operands hoperands⟩
  | .chain _ label op run, h => Run.confined_of_plain label op run h
  | .call _ _ f _ arguments, h => by
    obtain ⟨hf, hoffset, harguments⟩ := h
    rw [Node.length_plainAll] at hf
    exact ⟨hf, hoffset, Node.allConfined_of_plain arguments harguments⟩
  | .hole .., h => h
theorem Node.allConfined_of_plain : (nodes : List Node) →
    Node.AllConfined names bound (Node.plainAll nodes) → Node.AllConfined names bound nodes
  | [], _ => trivial
  | node :: nodes, h => ⟨Node.confined_of_plain node h.1, Node.allConfined_of_plain nodes h.2⟩
theorem Run.confined_of_plain (label : String) (op : Operator) : (run : Run) →
    (run.plain label op).Confined names bound →
      op.behaviour.Confined 2 ∧ run.Confined names bound
  | .pair left _ right, h => by
    obtain ⟨hop, hoffset, hleft, hright, -⟩ := h
    exact ⟨hop, Node.confined_of_plain left hleft, hoffset, Node.confined_of_plain right hright⟩
  | .extended run _ right, h => by
    obtain ⟨hop, hoffset, hrun, hright, -⟩ := h
    exact ⟨hop, (Run.confined_of_plain label op run hrun).2, hoffset,
      Node.confined_of_plain right hright⟩
end

section Self

variable (settings : Settings) (e f : Environment)

mutual
theorem Node.confinement_self : (node : Node) → node.Confined names bound →
    (Simulation.confinement names bound limited e f).Nodes settings node node
  | .constant .., hvalue => .constant trivial hvalue
  | .reference .., h =>
    .reference trivial ⟨rfl, h.2⟩ fun held => Simulation.confinement_reads _ held h.1
  | .operation _ _ _ _ operands, h =>
    .operation trivial ⟨rfl, h.2.1⟩ (Simulation.confinement_behaves settings h.1)
      (Node.allConfinement_self operands h.2.2)
  | .chain _ _ _ run, h =>
    .chain trivial (Simulation.confinement_behaves settings h.1) (Run.confinement_self run h.2)
  | .call _ _ _ _ arguments, h =>
    .call trivial ⟨rfl, h.2.1⟩ (Simulation.confinement_behaves settings h.1)
      (Node.allConfinement_self arguments h.2.2)
  | .hole .., h => h.elim
theorem Node.allConfinement_self : (nodes : List Node) → Node.AllConfined names bound nodes →
    (Simulation.confinement names bound limited e f).AllNodes settings nodes nodes
  | [], _ => .nil
  | node :: nodes, h => .cons (Node.confinement_self node h.1) (Node.allConfinement_self nodes h.2)
theorem Run.confinement_self : (run : Run) → run.Confined names bound →
    (Simulation.confinement names bound limited e f).Runs settings run run
  | .pair left _ right, h =>
    .pair (Node.confinement_self left h.1) ⟨rfl, h.2.1⟩ (Node.confinement_self right h.2.2)
  | .extended run _ right, h =>
    .extended (Run.confinement_self run h.1) ⟨rfl, h.2.1⟩ (Node.confinement_self right h.2.2)
end

end Self

/-- A confined tree is confined in every evaluation, whatever room there is for nesting. -/
theorem Node.force_confined (settings : Settings) (node : Node) (hnode : node.Confined names bound)
    (room : Option Nat) (hroom : room.isSome = true → limited = true) :
    ForcesWithin names (Failure.Placed bound limited) (node.force settings room) := by
  intro s t h
  have hstates : (Simulation.confinement names bound limited s.environment t.environment).states [] s t :=
    .refl h
  exact (Simulation.force_ends (node.confinement_self settings _ _ hnode) (.inl ⟨rfl, hroom⟩)
    hstates).confined

/-- At the limit on nesting the evaluation of a tree fails without a place. -/
theorem Tree.evaluate_confined {tree : Tree} (htree : tree.root.Confined names bound)
    (settings : Settings) (h : s.Matches names t) :
    Ends (Value.Within names)
      (fun failure => failure.LiesIn 0 bound ∨
        settings.machine.frames.isSome = true ∧ failure = .of .nestedTooDeeply)
      (Reached names names s.environment t.environment) (tree.evaluate settings s)
      (tree.evaluate settings t) := by
  have hforced := tree.root.force_confined settings htree settings.machine.frames id h
  unfold Tree.evaluate
  generalize tree.root.force settings settings.machine.frames s = left at hforced
  generalize tree.root.force settings settings.machine.frames t = right at hforced
  cases hforced with
  | ok hvalue hreached => exact .ok hvalue hreached
  | error hfailure hreached =>
    obtain ⟨cause, offset, rfl, hoffset⟩ | ⟨hlimited, rfl⟩ := hfailure
    · exact .error (.inl ⟨cause, offset, rfl, hoffset⟩) hreached
    · exact .error (.inr ⟨hlimited, rfl⟩) hreached

end Formula
