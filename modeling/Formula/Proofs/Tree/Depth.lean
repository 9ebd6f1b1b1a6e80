import Formula.Proofs.Evaluation.Joined
import Formula.Proofs.Evaluation.Tree
import Formula.Proofs.Tree.Flat
import Formula.Proofs.Tree.Mention

/-! # How deep built trees are

A run of any number of operands, nested to the left in its notation, is built as one node above the trees of
its operands. So it is one level deeper than the deepest of them.
-/
namespace Formula

mutual
/-- How many nodes with operands are on the longest way down. A run is one node, however long it is. -/
def Node.nesting : Node → Nat
  | .constant .. | .reference .. | .hole .. => 0
  | .operation _ _ _ _ operands => Node.nestingAll operands + 1
  | .chain _ _ _ run => run.nesting + 1
  | .call _ _ _ _ arguments => Node.nestingAll arguments + 1
def Node.nestingAll : List Node → Nat
  | [] => 0
  | node :: nodes => max node.nesting (Node.nestingAll nodes)
def Run.nesting : Run → Nat
  | .pair left _ right => max left.nesting right.nesting
  | .extended run _ right => max run.nesting right.nesting
end

mutual
theorem Node.nesting_unplaced : (node : Node) → node.unplaced.nesting = node.nesting
  | .constant .. | .reference .. | .hole .. => rfl
  | .operation _ _ _ _ operands => by
    simp [Node.unplaced, Node.nesting, Node.nestingAll_unplaced operands]
  | .chain _ _ _ run => by simp [Node.unplaced, Node.nesting, run.nesting_unplaced]
  | .call _ _ _ _ arguments => by
    simp [Node.unplaced, Node.nesting, Node.nestingAll_unplaced arguments]
theorem Node.nestingAll_unplaced : (nodes : List Node) →
    Node.nestingAll (Node.unplacedAll nodes) = Node.nestingAll nodes
  | [] => rfl
  | node :: nodes => by
    simp [Node.unplacedAll, Node.nestingAll, node.nesting_unplaced, Node.nestingAll_unplaced nodes]
theorem Run.nesting_unplaced : (run : Run) → run.unplaced.nesting = run.nesting
  | .pair left _ right => by
    simp [Run.unplaced, Run.nesting, left.nesting_unplaced, right.nesting_unplaced]
  | .extended run _ right => by
    simp [Run.unplaced, Run.nesting, run.nesting_unplaced, right.nesting_unplaced]
end

variable {registry : Registry} {context : Context} {label : String} {op : Operator}

namespace Node

theorem unplacedAll_eq_map (nodes : List Node) : unplacedAll nodes = nodes.map unplaced := by
  induction nodes with
  | nil => rfl
  | cons node nodes ih => rw [unplacedAll, ih, List.map_cons]

theorem nestingAll_append (nodes more : List Node) :
    nestingAll (nodes ++ more) = max (nestingAll nodes) (nestingAll more) := by
  induction nodes with
  | nil => simp [nestingAll]
  | cons node nodes ih => rw [List.cons_append, nestingAll, nestingAll, ih, Nat.max_assoc]

theorem exists_deepest {nodes : List Node} (h : nodes ≠ []) :
    ∃ deepest ∈ nodes, (∀ node ∈ nodes, node.nesting ≤ deepest.nesting) ∧
      nestingAll nodes = deepest.nesting := by
  induction nodes with
  | nil => exact absurd rfl h
  | cons node nodes ih =>
    cases nodes with
    | nil => exact ⟨node, by simp, by simp, by simp [nestingAll]⟩
    | cons next rest =>
      obtain ⟨deepest, hmem, hdeepest, hall⟩ := ih (List.cons_ne_nil _ _)
      rw [nestingAll, hall]
      rcases Nat.le_total node.nesting deepest.nesting with hle | hle
      · exact ⟨deepest, .tail _ hmem, List.forall_mem_cons.mpr ⟨hle, hdeepest⟩, Nat.max_eq_right hle⟩
      · refine ⟨node, .head _, List.forall_mem_cons.mpr ⟨Nat.le_refl _, fun other hother => ?_⟩,
          Nat.max_eq_left hle⟩
        exact Nat.le_trans (hdeepest other hother) hle

end Node

namespace Run

theorem nesting_eq (run : Run) : run.nesting = Node.nestingAll run.nodes := by
  cases run with
  | pair left offset right => simp [nesting, Node.nestingAll]
  | extended run offset right => simp [nesting, Node.nestingAll_append, Node.nestingAll, nesting_eq run]

theorem nodes_unplaced (run : Run) : run.unplaced.nodes = run.nodes.map Node.unplaced := by
  cases run with
  | pair left offset right => rfl
  | extended run offset right => simp [unplaced, nodes_unplaced run]

end Run

namespace Term

/-- The operands of the run of `label` that the term is, nested to the left; or the term alone. -/
def runOperands (label : String) : Term → List Term
  | .infixed sign left right =>
    if sign.val.surface = label then left.runOperands label ++ [right] else [.infixed sign left right]
  | term => [term]

theorem runOperands_ne_nil (label : String) (term : Term) : term.runOperands label ≠ [] := by
  cases term with
  | infixed sign left right =>
    rw [runOperands]
    split <;> simp
  | atom | prefixed | call => exact List.cons_ne_nil _ _

theorem runOperands_length {sign : TokenOf .operator} (left right : Term)
    (hsign : sign.val.surface = label) :
    2 ≤ ((Term.infixed sign left right).runOperands label).length := by
  have hleft := List.length_pos_iff.mpr (left.runOperands_ne_nil label)
  rw [runOperands, if_pos hsign, List.length_append, List.length_singleton]
  omega

/-- A run is built of a term with this operator between two operands only. -/
theorem sign_of_chain {term : Term} {node : Node} (h : term.node? registry context = some node)
    {id : Nat} {run : Run} (hplain : (Node.chain id label op run).plain = node) :
    ∃ sign left right, term = .infixed sign left right ∧ sign.val.surface = label := by
  obtain ⟨offset, first, second, hrun⟩ :
      ∃ offset first second, run.plain label op = .operation 0 label op offset [first, second] := by
    cases run <;> exact ⟨_, _, _, rfl⟩
  rw [Node.plain, hrun] at hplain
  subst hplain
  cases term with
  | atom leaf =>
    unfold node? at h
    split at h
    · cases h
    · simp at h
  | prefixed sign operand =>
    simp only [node?, bind, Option.bind_eq_some_iff, pure, Option.some.injEq] at h
    obtain ⟨_, -, _, -, hnode⟩ := h
    cases hnode
  | infixed sign left right =>
    simp only [node?, bind, Option.bind_eq_some_iff, pure, Option.some.injEq] at h
    obtain ⟨_, -, _, -, _, -, hnode⟩ := h
    cases hnode
    exact ⟨sign, left, right, rfl, rfl⟩
  | call mark name arguments =>
    simp only [node?, bind, Option.bind_eq_some_iff, pure, Option.some.injEq] at h
    obtain ⟨_, -, _, -, hnode⟩ := h
    cases hnode

theorem exists_trees_of_infixed {sign : TokenOf .operator} {left right : Term} {tree : Tree}
    (hcallable : (Term.infixed sign left right).Callable registry)
    (h : Tree.ofRpn registry context (Term.infixed sign left right).listing = .ok tree) :
    ∃ first second, Tree.ofRpn registry context left.listing = .ok first ∧
      Tree.ofRpn registry context right.listing = .ok second := by
  obtain ⟨node, hnode, -⟩ :=
    Tree.exists_node_of_ofRpn (fun _ _ => Registry.Accepts.registered) hcallable h
  simp only [node?, bind, Option.bind_eq_some_iff, pure, Option.some.injEq] at hnode
  obtain ⟨op, -, _, hleft, _, hright, -⟩ := hnode
  obtain ⟨first, hfirst, -⟩ := Tree.ofRpn_listing hleft
  obtain ⟨second, hsecond, -⟩ := Tree.ofRpn_listing hright
  exact ⟨first, second, hfirst, hsecond⟩

end Term

open Term

/-- The tree is a run of these operands, up to places and numbers; or it is the only one of them, and no run of
`label`. -/
def Node.Spans (label : String) (op : Operator) (operands : List Node) (node : Node) : Prop :=
  (operands = [node] ∧ ∀ id op run, node ≠ .chain id label op run) ∨
    ∃ id run, node = .chain id label op run ∧ run.nodes.map Node.unplaced = operands.map Node.unplaced

namespace Assembly

theorem binary_pair (hchainable : op.chainable = true) {left : Node}
    (hleft : ∀ id op run, left ≠ .chain id label op run) (right : Node) :
    (binary label op 0 left right 0).1 = .chain 0 label op (.pair left 0 right) := by
  cases left with
  | chain id chained found run =>
    have hlabel : chained ≠ label := by
      rintro rfl
      exact hleft id found run rfl
    simp [binary, hchainable, hlabel]
  | constant | reference | operation | call | hole => simp [binary, hchainable]

/-- What is joined is a run of the operands that there were and of the new one. -/
theorem exists_binary_nodes (hchainable : op.chainable = true) {left : Node} {operands : List Node}
    (hleft : left.Spans label op operands) (right : Node) :
    ∃ id run, (binary label op 0 left right 0).1 = .chain id label op run ∧
      run.nodes.map Node.unplaced = (operands ++ [right]).map Node.unplaced := by
  obtain ⟨rfl, hother⟩ | ⟨id, run, rfl, hnodes⟩ := hleft
  · exact ⟨0, _, binary_pair hchainable hother right, rfl⟩
  · exact ⟨id, _, Node.joined_chain hchainable id run [right], by simp [Run.followed, hnodes]⟩

end Assembly

theorem Node.exists_chain_of_unplaced {node : Node} {id : Nat} {run : Run}
    (h : node.unplaced = (Node.chain id label op run).unplaced) :
    ∃ other further, node = .chain other label op further ∧
      further.nodes.map Node.unplaced = run.nodes.map Node.unplaced := by
  cases node with
  | chain other _ _ further =>
    simp only [Node.unplaced, Node.chain.injEq] at h
    obtain ⟨-, rfl, rfl, hrun⟩ := h
    exact ⟨other, further, rfl, by rw [← Run.nodes_unplaced, hrun, Run.nodes_unplaced]⟩
  | _ => simp [Node.unplaced] at h

def OperandTrees (registry : Registry) (context : Context) (label : String) (term : Term)
    (trees : List Tree) : Prop :=
  List.Forall₂ (fun operand tree => Tree.ofRpn registry context operand.listing = .ok tree)
    (term.runOperands label) trees

theorem exists_operandTrees_alone {term : Term} (hterm : term.runOperands label = [term])
    (hcallable : term.Callable registry) {tree : Tree}
    (h : Tree.ofRpn registry context term.listing = .ok tree) :
    ∃ trees, OperandTrees registry context label term trees ∧
      tree.root.Spans label op (trees.map (·.root)) := by
  refine ⟨[tree], ?_, .inl ⟨rfl, fun id found run hchain => ?_⟩⟩
  · rw [OperandTrees, hterm]
    exact .cons h .nil
  · obtain ⟨node, hnode, hplain, -⟩ :=
      Tree.exists_node_of_ofRpn (fun _ _ => Registry.Accepts.registered) hcallable h
    rw [hchain] at hplain
    obtain ⟨sign, left, right, rfl, hsign⟩ := sign_of_chain hnode hplain
    have hlength := runOperands_length left right hsign
    rw [hterm] at hlength
    exact absurd hlength (by simp)

theorem exists_operandTrees (hop : registry.operator? label = some op) (hchainable : op.chainable = true) :
    (term : Term) → term.Callable registry → ∀ {tree : Tree},
    Tree.ofRpn registry context term.listing = .ok tree →
      ∃ trees, OperandTrees registry context label term trees ∧
        tree.root.Spans label op (trees.map (·.root))
  | .infixed sign left right, hcallable, tree, h => by
    by_cases hlabel : sign.val.surface = label
    · -- the operator is joined to the tree of its left operand, which is the run of the operands so far
      obtain ⟨first, second, hfirst, hsecond⟩ := exists_trees_of_infixed hcallable h
      obtain ⟨trees, htrees, hrun⟩ := exists_operandTrees hop hchainable left hcallable.1 hfirst
      obtain ⟨hmakesFirst, -⟩ := makes_of_ofRpn hcallable.1 hfirst
      obtain ⟨hmakesSecond, -⟩ := makes_of_ofRpn hcallable.2 hsecond
      obtain ⟨built, hbuilt, hroot⟩ := (hmakesFirst.infixed hmakesSecond (hlabel ▸ hop)).ofRpn rfl
      obtain rfl : built = tree := Except.ok.inj (hbuilt.symm.trans h)
      obtain ⟨id, run, hbinary, hnodes⟩ := Assembly.exists_binary_nodes hchainable hrun second.root
      rw [hlabel, hbinary] at hroot
      obtain ⟨other, further, hchain, hfurther⟩ := Node.exists_chain_of_unplaced hroot
      refine ⟨trees ++ [second], ?_, .inr ⟨other, further, hchain, ?_⟩⟩
      · rw [OperandTrees, runOperands, if_pos hlabel]
        exact List.rel_append htrees (.cons hsecond .nil)
      · rw [hfurther, hnodes, List.map_append, List.map_append, List.map_append]
        rfl
    · exact exists_operandTrees_alone (by rw [runOperands, if_neg hlabel]) hcallable h
  | .atom leaf, hcallable, _, h => exists_operandTrees_alone rfl hcallable h
  | .prefixed sign operand, hcallable, _, h => exists_operandTrees_alone rfl hcallable h
  | .call mark name arguments, hcallable, _, h => exists_operandTrees_alone rfl hcallable h

/-- A run nested to the left is built one level deeper than the deepest of its operands. -/
theorem nesting_of_run {sign : TokenOf .operator} {left right : Term}
    (hop : registry.operator? sign.val.surface = some op) (hchainable : op.chainable = true)
    (hcallable : (Term.infixed sign left right).Callable registry) {tree : Tree}
    (h : Tree.ofRpn registry context (Term.infixed sign left right).listing = .ok tree) :
    ∃ trees, OperandTrees registry context sign.val.surface (.infixed sign left right) trees ∧
      ∃ deepest ∈ trees, (∀ other ∈ trees, other.root.nesting ≤ deepest.root.nesting) ∧
        tree.root.nesting = deepest.root.nesting + 1 := by
  obtain ⟨trees, htrees, hroot⟩ := exists_operandTrees hop hchainable _ hcallable h
  have hlength : 2 ≤ trees.length := htrees.length_eq ▸ runOperands_length left right rfl
  refine ⟨trees, htrees, ?_⟩
  obtain ⟨halone, -⟩ | ⟨id, run, hchain, hnodes⟩ := hroot
  · -- a run has two operands or more, so the tree is not that of one alone
    have hone := congrArg List.length halone
    rw [List.length_map, List.length_singleton] at hone
    omega
  · have hroots : trees.map (·.root) ≠ [] := by
      rw [Ne, List.map_eq_nil_iff, ← List.length_eq_zero_iff]
      omega
    obtain ⟨_, hmem, hdeepest, hall⟩ := Node.exists_deepest hroots
    obtain ⟨deepest, hdeepestMem, rfl⟩ := List.mem_map.mp hmem
    refine ⟨deepest, hdeepestMem, fun other hother => hdeepest _ (List.mem_map_of_mem hother), ?_⟩
    have hnesting : run.nesting = deepest.root.nesting := by
      rw [run.nesting_eq, ← Node.nestingAll_unplaced, Node.unplacedAll_eq_map, hnodes,
        ← Node.unplacedAll_eq_map, Node.nestingAll_unplaced, hall]
    rw [hchain, Node.nesting, hnesting]

/-- Nowhere in a tree that was built of a valid list does a run start with a run of the same operator; each
run has a step, and its operator is binary, associates to the left and forces its left operand first. Step by
step the tree mentions the tokens of the list in their order. A list that ends with an operator that runs on
is built one level deeper than the deepest of the operands between which the operator stands. -/
theorem built_tree_keeps_runs_flat (registry : Registry) (context : Context) (rpn : List Token)
    (hvalid : Rpn.validate registry rpn = .ok ()) (tree : Tree)
    (hbuilt : Tree.ofRpn registry context rpn = .ok tree) :
    (∀ run ∈ tree.root.runs, run.IsFlat registry) ∧
      (registry.Keyed → ∀ run ∈ tree.root.runs, ∀ id label op inner,
        run.run.first = .chain id label op inner → op ≠ run.op) ∧
      List.Forall₂ (Token.Mentioned registry context) rpn tree.root.mentions ∧
      ∀ (sign : TokenOf .operator) (left right : Term) (op : Operator),
        rpn = (Term.infixed sign left right).listing →
        registry.operator? sign.val.surface = some op → op.chainable = true →
          ∃ trees, OperandTrees registry context sign.val.surface (.infixed sign left right) trees ∧
            ∃ deepest ∈ trees, (∀ other ∈ trees, other.root.nesting ≤ deepest.root.nesting) ∧
              tree.root.nesting = deepest.root.nesting + 1 := by
  have hflat : tree.root.Flat registry := (Assembly.kept_flat registry context).ofRpn hbuilt
  refine ⟨hflat, fun hkeyed run hrun _ _ _ _ hfirst => (hflat run hrun).first_ne hkeyed hfirst, ?_, ?_⟩
  · obtain ⟨term, node, rfl, hnode, rfl, -⟩ := Tree.exists_plain_of_ofRpn hvalid hbuilt
    have hmentioned := mentioned_node? term hnode
    rwa [Node.mentions_plain] at hmentioned
  · rintro sign left right op rfl hop hchainable
    obtain ⟨term, hlisting, hcallable⟩ := Tree.exists_term_of_ofRpn hvalid hbuilt
    obtain rfl : term = .infixed sign left right := listing_injective hlisting
    exact nesting_of_run hop hchainable hcallable hbuilt

def Term.addedSum : Term :=
  .infixed ⟨⟨.operator, "+", 9⟩, rfl⟩
    (.infixed ⟨⟨.operator, "+", 2⟩, rfl⟩ (.atom ⟨⟨.number, "2", 0⟩, rfl⟩)
      (.atom ⟨⟨.variableName, "rate", 4⟩, rfl⟩))
    (.infixed ⟨⟨.operator, "+", 17⟩, rfl⟩ (.atom ⟨⟨.variableName, "base", 12⟩, rfl⟩)
      (.atom ⟨⟨.number, "1", 19⟩, rfl⟩))

theorem addedSum_kept_flat :
    ∃ tree, Tree.ofRpn .standard ⟨34, .halfEven⟩ Term.addedSum.listing = .ok tree ∧
      (∀ run ∈ tree.root.runs, run.IsFlat .standard) ∧
      (∀ run ∈ tree.root.runs, ∀ id label op inner,
        run.run.first = .chain id label op inner → op ≠ run.op) ∧
      List.Forall₂ (Token.Mentioned .standard ⟨34, .halfEven⟩) Term.addedSum.listing tree.root.mentions ∧
      ∃ trees, OperandTrees .standard ⟨34, .halfEven⟩ "+" Term.addedSum trees ∧
        ∃ deepest ∈ trees, (∀ other ∈ trees, other.root.nesting ≤ deepest.root.nesting) ∧
          tree.root.nesting = deepest.root.nesting + 1 := by
  have hvalid : Rpn.validate .standard Term.addedSum.listing = .ok () := by rfl
  have hplus : (Registry.standard.operator? "+").any (·.chainable) = true := by decide +kernel
  obtain ⟨op, hop, hchainable⟩ := (Option.any_eq_true _ _).mp hplus
  cases hbuilt : Tree.ofRpn .standard ⟨34, .halfEven⟩ Term.addedSum.listing with
  | error failure =>
    have hok : (Tree.ofRpn .standard ⟨34, .halfEven⟩ Term.addedSum.listing).isOk = true := by
      decide +kernel
    simp [hbuilt, Except.isOk, Except.toBool] at hok
  | ok tree =>
    obtain ⟨hflat, hother, hmentioned, hnesting⟩ :=
      built_tree_keeps_runs_flat .standard ⟨34, .halfEven⟩ _ hvalid tree hbuilt
    exact ⟨tree, rfl, hflat, hother Registry.Reachable.standard.keyed, hmentioned,
      hnesting _ _ _ op rfl hop hchainable⟩

end Formula
