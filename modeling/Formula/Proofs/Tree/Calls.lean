import Formula.Proofs.Tree.Listing

/-! # The calls in a tree

A call in a tree names the function that it applies and has its arguments. Where the tree comes from a
term, the functions are those that the registry had when the tree was built, and the numbers of arguments
are those that the term was validated with.
-/
namespace Formula

structure TreeCall where
  label : String
  function : Function
  arguments : Nat

mutual
def Node.calls : Node → List TreeCall
  | .constant .. | .reference .. | .hole .. => []
  | .operation _ _ _ _ operands => Node.allCalls operands
  | .chain _ _ _ run => run.calls
  | .call _ label f _ arguments => Node.allCalls arguments ++ [⟨label, f, arguments.length⟩]
def Node.allCalls : List Node → List TreeCall
  | [] => []
  | node :: nodes => node.calls ++ Node.allCalls nodes
def Run.calls : Run → List TreeCall
  | .pair left _ right => left.calls ++ right.calls
  | .extended run _ right => run.calls ++ right.calls
end

mutual
/-- Taking runs apart leaves the calls. -/
theorem Node.calls_plain : (node : Node) → node.plain.calls = node.calls
  | .constant .. | .reference .. | .hole .. => rfl
  | .operation _ _ _ _ operands => by
    simp only [Node.plain, Node.calls, Node.allCalls_plainAll operands]
  | .chain _ label op run => by simp only [Node.plain, Node.calls, run.calls_plain label op]
  | .call _ _ _ _ arguments => by
    simp only [Node.plain, Node.calls, Node.allCalls_plainAll arguments, Node.length_plainAll]
theorem Node.allCalls_plainAll : (nodes : List Node) →
    Node.allCalls (Node.plainAll nodes) = Node.allCalls nodes
  | [] => rfl
  | node :: nodes => by
    simp only [Node.plainAll, Node.allCalls, node.calls_plain, Node.allCalls_plainAll nodes]
theorem Run.calls_plain (label : String) (op : Operator) : (run : Run) →
    (run.plain label op).calls = run.calls
  | .pair left _ right => by
    simp only [Run.plain, Run.calls, Node.calls, Node.allCalls, left.calls_plain, right.calls_plain,
      List.append_nil]
  | .extended run _ right => by
    simp only [Run.plain, Run.calls, Node.calls, Node.allCalls, run.calls_plain label op,
      right.calls_plain, List.append_nil]
end

variable {registry earlier : Registry} {context : Context}

/-- The call is to a function of `registry`, with as many arguments as `earlier` wants for its name. -/
def TreeCall.IsFrom (registry earlier : Registry) (call : TreeCall) : Prop :=
  registry.function? call.label = some call.function ∧ earlier.Accepts call.label call.arguments

namespace Term

theorem length_nodes? {terms : List Term} {nodes : List Node}
    (h : nodes? registry context terms = some nodes) : nodes.length = terms.length := by
  induction terms generalizing nodes with
  | nil =>
    obtain rfl := Option.some.inj h
    rfl
  | cons term terms ih =>
    simp only [nodes?, Option.bind_eq_bind, Option.bind_eq_some_iff] at h
    obtain ⟨node, -, rest, hrest, hnodes⟩ := h
    obtain rfl := Option.some.inj hnodes
    rw [List.length_cons, List.length_cons, ih hrest]

mutual
/-- Validation and building may have asked different registries. -/
theorem calls_node? : (term : Term) → term.Callable earlier → ∀ {node : Node},
    term.node? registry context = some node → ∀ call ∈ node.calls, call.IsFrom registry earlier
  | .atom leaf, _, node, h => by
    unfold node? at h
    split at h
    · obtain rfl := Option.some.inj h
      exact nofun
    · obtain ⟨value, -, rfl⟩ := Option.map_eq_some_iff.mp h
      exact nofun
  | .prefixed sign operand, hcallable, node, h => by
    simp only [node?, Option.bind_eq_bind, Option.bind_eq_some_iff] at h
    obtain ⟨op, -, inner, hinner, hnode⟩ := h
    obtain rfl := Option.some.inj hnode
    have hcalls := calls_node? operand hcallable hinner
    simpa [Node.calls, Node.allCalls] using hcalls
  | .infixed sign left right, hcallable, node, h => by
    simp only [node?, Option.bind_eq_bind, Option.bind_eq_some_iff] at h
    obtain ⟨op, -, first, hfirst, second, hsecond, hnode⟩ := h
    obtain rfl := Option.some.inj hnode
    have hleft := calls_node? left hcallable.1 hfirst
    have hright := calls_node? right hcallable.2 hsecond
    simp only [Node.calls, Node.allCalls, List.append_nil, List.forall_mem_append]
    exact ⟨hleft, hright⟩
  | .call mark name arguments, hcallable, node, h => by
    simp only [node?, Option.bind_eq_bind, Option.bind_eq_some_iff] at h
    obtain ⟨f, hf, nodes, hnodes, hnode⟩ := h
    obtain rfl := Option.some.inj hnode
    have harguments := calls_nodes? arguments hcallable.2 hnodes
    simp only [Node.calls, List.forall_mem_append, List.forall_mem_singleton]
    refine ⟨harguments, hf, ?_⟩
    rw [length_nodes? hnodes]
    exact hcallable.1
theorem calls_nodes? : (terms : List Term) → AllCallable earlier terms → ∀ {nodes : List Node},
    nodes? registry context terms = some nodes →
      ∀ call ∈ Node.allCalls nodes, call.IsFrom registry earlier
  | [], _, nodes, h => by
    obtain rfl := Option.some.inj h
    exact nofun
  | term :: terms, hcallable, nodes, h => by
    simp only [nodes?, Option.bind_eq_bind, Option.bind_eq_some_iff] at h
    obtain ⟨node, hnode, rest, hrest, hnodes⟩ := h
    obtain rfl := Option.some.inj hnodes
    have hfirst := calls_node? term hcallable.1 hnode
    have hothers := calls_nodes? terms hcallable.2 hrest
    simp only [Node.allCalls, List.forall_mem_append]
    exact ⟨hfirst, hothers⟩
end

end Term

/-- Valid notation that is built later, when no function has vanished, makes calls with as many arguments
as were valid. -/
theorem Tree.calls_of_ofRpn
    (hfunctions : ∀ name arguments, earlier.Accepts name arguments →
      (registry.function? name).isSome = true)
    {rpn : List Token} (hvalid : Rpn.validate earlier rpn = .ok ()) {tree : Tree}
    (hbuilt : Tree.ofRpn registry context rpn = .ok tree) :
    ∀ call ∈ tree.root.calls, call.IsFrom registry earlier := by
  obtain ⟨term, rfl, hcallable⟩ := exists_term_of_ofRpn hvalid hbuilt
  obtain ⟨node, hnode, hplain, -⟩ := exists_node_of_ofRpn hfunctions hcallable hbuilt
  rw [← Node.calls_plain, hplain]
  exact term.calls_node? hcallable hnode

end Formula
