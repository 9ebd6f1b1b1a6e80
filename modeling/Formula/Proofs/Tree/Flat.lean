import Formula.Proofs.Registry.Reachable
import Formula.Proofs.Tree.Kept

/-! # Runs are kept flat

Building makes a run longer instead of putting it into a new run of the same operator. So nowhere in a built
tree is the first operand of a run a run of its operator, and runs are of operators that may run on.
-/
namespace Formula

namespace Run

def first : Run → Node
  | .pair left _ _ => left
  | .extended run _ _ => run.first

def steps : Run → List (Nat × Node)
  | .pair _ offset right => [(offset, right)]
  | .extended run offset right => run.steps ++ [(offset, right)]

def nodes (run : Run) : List Node := run.first :: run.steps.map (·.2)

@[simp] theorem nodes_pair (left : Node) (offset : Nat) (right : Node) :
    (Run.pair left offset right).nodes = [left, right] := rfl

@[simp] theorem nodes_extended (run : Run) (offset : Nat) (right : Node) :
    (Run.extended run offset right).nodes = run.nodes ++ [right] := by
  simp [nodes, first, steps]

theorem steps_ne_nil (run : Run) : run.steps ≠ [] := by
  cases run <;> simp [steps]

end Run

structure TreeRun where
  label : String
  op : Operator
  run : Run

mutual
def Node.runs : Node → List TreeRun
  | .constant .. | .reference .. | .hole .. => []
  | .operation _ _ _ _ operands => Node.allRuns operands
  | .chain _ label op run => ⟨label, op, run⟩ :: run.runs
  | .call _ _ _ _ arguments => Node.allRuns arguments
def Node.allRuns : List Node → List TreeRun
  | [] => []
  | node :: nodes => node.runs ++ Node.allRuns nodes
def Run.runs : Run → List TreeRun
  | .pair left _ right => left.runs ++ right.runs
  | .extended run _ right => run.runs ++ right.runs
end

theorem Node.mem_allRuns {run : TreeRun} {nodes : List Node} :
    run ∈ Node.allRuns nodes ↔ ∃ node ∈ nodes, run ∈ node.runs := by
  induction nodes with
  | nil => simp [Node.allRuns]
  | cons node nodes ih => simp [Node.allRuns, ih]

/-- A run of a binary operator that associates to the left and forces its left operand first. It has a step,
and if it starts with a run, then with one of another operator. -/
structure TreeRun.IsFlat (registry : Registry) (run : TreeRun) : Prop where
  registered : registry.operator? run.label = some run.op
  binary : run.op.unary = false
  leftAssociative : run.op.leftAssociative = true
  leftFirst : run.op.leftFirst = true
  steps : run.run.steps ≠ []
  first : ∀ ⦃id label op inner⦄, run.run.first = .chain id label op inner →
    registry.operator? label = some op ∧ label ≠ run.label

namespace TreeRun.IsFlat

variable {registry : Registry} {label : String} {op : Operator} {run : Run}

theorem pair (hop : registry.operator? label = some op) (hchainable : op.chainable = true) {left : Node}
    (hleft : ∀ ⦃id inner op run⦄, left = .chain id inner op run →
      registry.operator? inner = some op ∧ inner ≠ label) (offset : Nat) (right : Node) :
    TreeRun.IsFlat registry ⟨label, op, .pair left offset right⟩ := by
  simp only [Operator.chainable, Bool.and_eq_true, Bool.not_eq_true'] at hchainable
  exact ⟨hop, hchainable.1.1, hchainable.1.2, hchainable.2, Run.steps_ne_nil _, hleft⟩

theorem extended (h : TreeRun.IsFlat registry ⟨label, op, run⟩) (offset : Nat) (right : Node) :
    TreeRun.IsFlat registry ⟨label, op, .extended run offset right⟩ :=
  ⟨h.registered, h.binary, h.leftAssociative, h.leftFirst, Run.steps_ne_nil _, h.first⟩

/-- Where operators stand under their own keys, other labels are those of other operators. -/
theorem first_ne (hkeyed : registry.Keyed) {run : TreeRun} (h : run.IsFlat registry) {id : Nat}
    {inner : Run} (hfirst : run.run.first = .chain id label op inner) : op ≠ run.op := by
  rintro rfl
  obtain ⟨hop, hlabel⟩ := h.first hfirst
  have hkey := (hkeyed _ _ hop).1
  have hrunKey := (hkeyed _ _ h.registered).1
  exact hlabel (hkey.trans hrunKey.symm)

end TreeRun.IsFlat

def Node.Flat (registry : Registry) (node : Node) : Prop := ∀ run ∈ node.runs, run.IsFlat registry

namespace Assembly

variable {registry : Registry} {label : String} {op : Operator} {left right : Node}

/-- A run that another one would start with is made longer, if they are of one operator. -/
theorem binary_flat (hop : registry.operator? label = some op) (hleft : left.Flat registry)
    (hright : right.Flat registry) (offset next : Nat) :
    (binary label op offset left right next).1.Flat registry := by
  have hboth : ∀ run ∈ left.runs ++ right.runs, run.IsFlat registry :=
    List.forall_mem_append.mpr ⟨hleft, hright⟩
  unfold binary
  cases hchainable : op.chainable with
  | false => simpa [Node.Flat, Node.runs, Node.allRuns] using hboth
  | true =>
    have hpair (hother : ∀ ⦃id inner op run⦄, left = .chain id inner op run →
        registry.operator? inner = some op ∧ inner ≠ label) :
        (Node.chain next label op (.pair left offset right)).Flat registry :=
      List.forall_mem_cons.mpr ⟨.pair hop hchainable hother offset right, hboth⟩
    cases left with
    | chain id chained first run =>
      obtain ⟨hfirst, hrun⟩ := List.forall_mem_cons.mp hleft
      -- the run on the left goes on, or it is of another operator and may start a run itself
      by_cases hlabel : chained = label
      · simp only [Bool.not_true, Bool.false_eq_true, ↓reduceIte, if_pos hlabel]
        exact List.forall_mem_cons.mpr
          ⟨hfirst.extended offset right, List.forall_mem_append.mpr ⟨hrun, hright⟩⟩
      · simp only [Bool.not_true, Bool.false_eq_true, ↓reduceIte, if_neg hlabel]
        refine hpair fun _ inner _ _ hchain => ?_
        cases hchain
        exact ⟨hfirst.registered, hlabel⟩
    | constant | reference | operation | call | hole => exact hpair nofun

/-- Whatever tokens are taken in, all runs in the trees that wait are flat. -/
theorem kept_flat (registry : Registry) (context : Context) : Kept registry context (Node.Flat registry) where
  constant _ _ _ _ _ := List.forall_mem_nil _
  reference _ _ _ := List.forall_mem_nil _
  hole _ _ := List.forall_mem_nil _
  prefixed _ _ _ _ _ _ hoperand := by simpa [Node.Flat, Node.runs, Node.allRuns] using hoperand
  infixed _ _ offset _ _ next hop hleft hright := binary_flat hop hleft hright offset next
  call _ _ _ _ _ _ harguments := fun run hrun => by
    obtain ⟨node, hnode, hmem⟩ := Node.mem_allRuns.mp hrun
    exact harguments node hnode run hmem

end Assembly

end Formula
