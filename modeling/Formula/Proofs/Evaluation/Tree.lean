import Formula.Proofs.Library.Standard
import Formula.Proofs.Tree.Listing

/-! # Built trees evaluate as plain trees

The tree that is built keeps runs of an operator flat. Where the behaviours keep what a registry
promises of them, evaluating it has the outcome of the plain tree in which every operator has a node
of its own.
-/
namespace Formula

/-- What was built from a valid list is, up to its runs, the plain tree of the term
that the list lists. -/
theorem Tree.exists_plain_of_ofRpn {registry : Registry} {context : Context} {rpn : List Token}
    (hvalid : Rpn.validate registry rpn = .ok ()) {tree : Tree}
    (hbuilt : Tree.ofRpn registry context rpn = .ok tree) :
    ∃ (term : Term) (node : Node), term.listing = rpn ∧ term.node? registry context = some node ∧
      tree.root.plain = node ∧ tree.root.IsFrom registry := by
  obtain ⟨term, rfl, hcallable⟩ := exists_term_of_ofRpn hvalid hbuilt
  obtain ⟨node, hnode, hplain, hfrom⟩ :=
    exists_node_of_ofRpn (fun _ _ => Registry.Accepts.registered) hcallable hbuilt
  exact ⟨term, node, rfl, hnode, hplain, hfrom⟩

/-- Evaluating the built tree has the same value or failure as the plain tree of the listed term,
leaves the same lines in the same order, and ends in the same environment. -/
theorem built_tree_evaluates_as_plain (registry : Registry) (hkeeps : registry.Keeps)
    (context : Context) (rpn : List Token) (hvalid : Rpn.validate registry rpn = .ok ())
    (tree : Tree) (hbuilt : Tree.ofRpn registry context rpn = .ok tree) :
    ∃ (term : Term) (node : Node), term.listing = rpn ∧ term.node? registry context = some node ∧
      ∀ (settings : Settings) (s t : State), s.Agrees t →
        Agree (tree.root.force settings none s) (node.force settings none t) := by
  obtain ⟨term, node, hlisting, hnode, rfl, hfrom⟩ := Tree.exists_plain_of_ofRpn hvalid hbuilt
  exact ⟨term, _, hlisting, hnode, fun settings s t => Node.force_plain hkeeps tree.root hfrom s t⟩

def Rpn.assignedSum : List Token :=
  [⟨.variableName, "x", 0⟩, ⟨.number, "1", 4⟩, ⟨.operator, "=", 2⟩, ⟨.number, "2", 7⟩,
   ⟨.variableName, "x", 11⟩, ⟨.operator, "+", 9⟩, ⟨.variableName, "y", 15⟩, ⟨.operator, "+", 13⟩,
   ⟨.operator, ";", 5⟩, ⟨.variableName, "x", 18⟩, ⟨.operator, ";", 16⟩]

theorem assignedSum_evaluates_as_plain :
    ∃ (tree : Tree) (term : Term) (node : Node),
      Tree.ofRpn .standard ⟨34, .halfEven⟩ Rpn.assignedSum = .ok tree ∧
      term.listing = Rpn.assignedSum ∧ term.node? .standard ⟨34, .halfEven⟩ = some node ∧
      ∀ (settings : Settings) (s t : State), s.Agrees t →
        Agree (tree.root.force settings none s) (node.force settings none t) := by
  have hvalid : Rpn.validate .standard Rpn.assignedSum = .ok () := by rfl
  cases hbuilt : Tree.ofRpn .standard ⟨34, .halfEven⟩ Rpn.assignedSum with
  | error failure =>
    have hok : (Tree.ofRpn .standard ⟨34, .halfEven⟩ Rpn.assignedSum).isOk = true := by
      decide +kernel
    simp [hbuilt, Except.isOk, Except.toBool] at hok
  | ok tree =>
    obtain ⟨term, node, hlisting, hnode, hagree⟩ := built_tree_evaluates_as_plain .standard
      Registry.standard_keeps ⟨34, .halfEven⟩ Rpn.assignedSum hvalid tree hbuilt
    exact ⟨tree, term, node, rfl, hlisting, hnode, hagree⟩

end Formula
