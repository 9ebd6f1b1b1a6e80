import Formula.Proofs.Expression.Confinement
import Formula.Proofs.Tree.Places

/-! # Trees of scripts

A text that has a tree is read as a term that makes this tree wherever its tokens stand. So a script of such
texts has a tree as well, which is theirs joined by the semicolon, but for places and numbers.
-/
namespace Formula

namespace Registry

variable {registry : Registry} {context : Context} {source : String} {tree : Tree}

/-- A text that has a tree is read as a term that makes this tree. -/
theorem exists_term_of_treeOf (h : registry.treeOf context source = .ok tree) :
    ∃ term, Rpn.ReadAs registry source term ∧ term.Makes registry context tree.root ∧
      tree.root.IsFrom registry := by
  obtain ⟨rpn, hrpn, hbuilt⟩ := exists_of_bind_eq_ok h
  obtain ⟨tokens, htokens, hchecked⟩ := exists_of_bind_eq_ok hrpn
  obtain ⟨term, ⟨scanned, hread⟩, rfl⟩ := Rpn.exists_readAs htokens hchecked
  obtain ⟨hmakes, hfrom⟩ := Term.makes_of_ofRpn hread.2.2 hbuilt
  exact ⟨term, ⟨scanned, hread⟩, hmakes, hfrom⟩

/-- A text that is read like a term has the tree that the term makes. -/
theorem exists_tree_of_makes {text : String} {term listed : Term} {node : Node}
    (hmakes : term.Makes registry context node) (hread : Rpn.ReadAs registry text listed)
    (hplaces : listed.listing.map Token.unplaced = term.listing.map Token.unplaced) :
    ∃ tree, registry.treeOf context text = .ok tree ∧ tree.root.unplaced = node.unplaced := by
  obtain ⟨tokens, htokens, hchecked, -⟩ := hread
  obtain ⟨tree, hbuilt, hroot⟩ := hmakes.ofRpn (Term.unplaced_eq_of_listing hplaces)
  refine ⟨tree, ?_, hroot⟩
  rw [treeOf, rpnOf, htokens]
  change Rpn.checked registry tokens >>= _ = _
  rw [hchecked]
  exact hbuilt

/-- A script builds the trees of its sources, joined by the semicolon. -/
theorem treeOf_script {op : Operator} (hkeyed : registry.Keyed) (hop : registry.operator? ";" = some op)
    (hunary : op.unary = false) (hends : op.Ends (some op)) {sources : List String} {trees : List Tree}
    (htree : registry.treeOf context source = .ok tree)
    (htrees : List.Forall₂ (fun source tree => registry.treeOf context source = .ok tree) sources trees) :
    ∃ whole, registry.treeOf context (script (source :: sources)) = .ok whole ∧
      whole.root.unplaced = (Node.joined ";" op tree.root (trees.map Tree.root)).unplaced := by
  have hterms : ∃ terms, List.Forall₂ (Rpn.ReadAs registry) sources terms ∧
      List.Forall₂ (Term.Makes registry context) terms (trees.map Tree.root) := by
    induction htrees with
    | nil => exact ⟨[], .nil, .nil⟩
    | cons hnext _ ih =>
      obtain ⟨term, hread, hmakes, -⟩ := exists_term_of_treeOf hnext
      obtain ⟨terms, hreads, hmakeAll⟩ := ih
      exact ⟨term :: terms, .cons hread hreads, .cons hmakes hmakeAll⟩
  obtain ⟨term, hread, hmakes, -⟩ := exists_term_of_treeOf htree
  obtain ⟨terms, hreads, hmakeAll⟩ := hterms
  obtain ⟨listed, hlisted, hplaces⟩ := Rpn.readAs_script hkeyed hop hunary hends hread hreads
  exact exists_tree_of_makes (Term.makes_joined hop hmakeAll hmakes) hlisted hplaces

theorem confined_of_treeOf (hregistry : registry.Confined) (h : registry.treeOf context source = .ok tree) :
    tree.root.Confined (registry.variableNames source) source.length := by
  by_cases hsource : tokenize registry source = .ok []
  · rw [treeOf_of_no_tokens hsource] at h
    cases h
  · have hyields : Yields (fun tree => tree.root.Confined (registry.variableNames source) source.length)
        (Failure.LiesIn 0 source.length) (registry.treeOf context source) :=
      treeOf_confined hregistry hsource
    rw [h] at hyields
    exact hyields.of_ok

/-- The trees of sources that have one each. -/
theorem exists_trees {sources : List String}
    (h : ∀ source ∈ sources, ∃ tree, registry.treeOf context source = .ok tree) :
    ∃ trees, List.Forall₂ (fun source tree => registry.treeOf context source = .ok tree) sources trees ∧
      ∀ tree ∈ trees, ∃ source ∈ sources, registry.treeOf context source = .ok tree := by
  induction sources with
  | nil => exact ⟨[], .nil, nofun⟩
  | cons source sources ih =>
    obtain ⟨⟨tree, htree⟩, hsources⟩ := List.forall_mem_cons.mp h
    obtain ⟨trees, htrees, hmem⟩ := ih hsources
    refine ⟨tree :: trees, .cons htree htrees, List.forall_mem_cons.mpr ⟨?_, fun other hother => ?_⟩⟩
    · exact ⟨source, List.mem_cons_self, htree⟩
    · obtain ⟨next, hnext, hbuilt⟩ := hmem other hother
      exact ⟨next, List.mem_cons_of_mem source hnext, hbuilt⟩

end Registry

end Formula
