import Formula.Library.Standard
import Formula.Proofs.Rpn.Validation
import Formula.Proofs.Tree.Assembly

/-! # Validation and building read the same tree

A list without commas and closing parentheses is valid if and only if it lists a term whose calls
fit their functions. Building then makes the tree of this term, as soon as the registry has the
operators and the literals have values.
-/
namespace Formula

variable {registry earlier : Registry} {context : Context}

theorem Registry.Accepts.registered {name : String} {arguments : Nat}
    (h : registry.Accepts name arguments) : (registry.function? name).isSome = true := by
  obtain ⟨f, hf, -⟩ := h
  rw [hf]
  rfl

namespace Term

theorem node?_atom {leaf : Leaf}
    (hliterals : leaf.token.kind.isLiteral = true →
      (Literal.value? context leaf.token).isOk = true) :
    ∃ node, (Term.atom leaf).node? registry context = some node := by
  unfold node?
  split
  · exact ⟨_, rfl⟩
  next hvariable =>
    have hconverts := hliterals (leaf.isLiteral hvariable)
    cases hvalue : Literal.value? context leaf.token with
    | error failure => simp [hvalue, Except.isOk, Except.toBool] at hconverts
    | ok value => exact ⟨_, rfl⟩

mutual
/-- A term has a tree where its functions and operators are registered and its
literals have values. Its calls may have been checked against another registry. -/
theorem exists_node_of_registered
    (hfunctions : ∀ name arguments, earlier.Accepts name arguments →
      (registry.function? name).isSome = true) : (term : Term) → term.Callable earlier →
    (∀ token ∈ term.listing, token.kind.isOperator = true →
      (registry.operator? token.surface).isSome = true) →
    (∀ token ∈ term.listing, token.kind.isLiteral = true →
      (Literal.value? context token).isOk = true) →
    ∃ node, term.node? registry context = some node
  | .atom leaf, _, _, hliterals => node?_atom (hliterals leaf.token (by simp [listing]))
  | .prefixed sign operand, hcallable, hoperators, hliterals => by
    obtain ⟨op, hop⟩ := Option.isSome_iff_exists.mp
      (hoperators sign.val (by simp [listing]) (by simp [sign.property, TokenKind.isOperator]))
    obtain ⟨node, hnode⟩ := exists_node_of_registered hfunctions operand hcallable
      (fun token htoken => hoperators token (by simp [listing, htoken]))
      (fun token htoken => hliterals token (by simp [listing, htoken]))
    exact ⟨_, by simp only [node?, hop, hnode]; rfl⟩
  | .infixed sign left right, hcallable, hoperators, hliterals => by
    obtain ⟨op, hop⟩ := Option.isSome_iff_exists.mp
      (hoperators sign.val (by simp [listing]) (by simp [sign.property, TokenKind.isOperator]))
    obtain ⟨leftNode, hleft⟩ := exists_node_of_registered hfunctions left hcallable.1
      (fun token htoken => hoperators token (by simp [listing, htoken]))
      (fun token htoken => hliterals token (by simp [listing, htoken]))
    obtain ⟨rightNode, hright⟩ := exists_node_of_registered hfunctions right hcallable.2
      (fun token htoken => hoperators token (by simp [listing, htoken]))
      (fun token htoken => hliterals token (by simp [listing, htoken]))
    exact ⟨_, by simp only [node?, hop, hleft, hright]; rfl⟩
  | .call mark name arguments, hcallable, hoperators, hliterals => by
    obtain ⟨haccepts, harguments⟩ := hcallable
    obtain ⟨f, hf⟩ := Option.isSome_iff_exists.mp (hfunctions _ _ haccepts)
    obtain ⟨nodes, hnodes⟩ := exists_nodes_of_registered hfunctions arguments harguments
      (fun token htoken => hoperators token (by simp [listing, htoken]))
      (fun token htoken => hliterals token (by simp [listing, htoken]))
    exact ⟨_, by simp only [node?, hf, hnodes]; rfl⟩
theorem exists_nodes_of_registered
    (hfunctions : ∀ name arguments, earlier.Accepts name arguments →
      (registry.function? name).isSome = true) : (terms : List Term) → AllCallable earlier terms →
    (∀ token ∈ listings terms, token.kind.isOperator = true →
      (registry.operator? token.surface).isSome = true) →
    (∀ token ∈ listings terms, token.kind.isLiteral = true →
      (Literal.value? context token).isOk = true) →
    ∃ nodes, nodes? registry context terms = some nodes
  | [], _, _, _ => ⟨[], rfl⟩
  | term :: terms, hcallable, hoperators, hliterals => by
    obtain ⟨node, hnode⟩ := exists_node_of_registered hfunctions term hcallable.1
      (fun token htoken => hoperators token (by simp [listings, htoken]))
      (fun token htoken => hliterals token (by simp [listings, htoken]))
    obtain ⟨nodes, hnodes⟩ := exists_nodes_of_registered hfunctions terms hcallable.2
      (fun token htoken => hoperators token (by simp [listings, htoken]))
      (fun token htoken => hliterals token (by simp [listings, htoken]))
    exact ⟨_, by simp only [nodes?, hnode, hnodes]; rfl⟩
end

theorem exists_node (term : Term) (hcallable : term.Callable registry)
    (hoperators : ∀ token ∈ term.listing, token.kind.isOperator = true →
      (registry.operator? token.surface).isSome = true)
    (hliterals : ∀ token ∈ term.listing, token.kind.isLiteral = true →
      (Literal.value? context token).isOk = true) :
    ∃ node, term.node? registry context = some node :=
  exists_node_of_registered (fun _ _ => Registry.Accepts.registered) term hcallable hoperators hliterals

end Term

namespace Tree

variable {tree : Tree}

/-- What is valid and builds a tree lists a term. -/
theorem exists_term_of_ofRpn {rpn : List Token} (hvalid : Rpn.validate earlier rpn = .ok ())
    (hbuilt : Tree.ofRpn registry context rpn = .ok tree) :
    ∃ term : Term, term.listing = rpn ∧ term.Callable earlier := by
  obtain ⟨last, hsteps, -⟩ := exists_of_bind_eq_ok hbuilt
  have htokens := Assembly.steps_inversion hsteps
  exact Rpn.exists_term_of_validate (fun token htoken => (htokens token htoken).1) hvalid

/-- The tree that a listing built is that of its term, up to runs and numbers. Another registry may have
validated it, if no function has vanished since. -/
theorem exists_node_of_ofRpn
    (hfunctions : ∀ name arguments, earlier.Accepts name arguments →
      (registry.function? name).isSome = true)
    {term : Term} (hcallable : term.Callable earlier)
    (hbuilt : Tree.ofRpn registry context term.listing = .ok tree) :
    ∃ node, term.node? registry context = some node ∧ tree.root.plain = node ∧
      tree.root.IsFrom registry := by
  obtain ⟨last, hsteps, -⟩ := exists_of_bind_eq_ok hbuilt
  have htokens := Assembly.steps_inversion hsteps
  obtain ⟨node, hnode⟩ := Term.exists_node_of_registered hfunctions term hcallable
    (fun token htoken => (htokens token htoken).2.1) (fun token htoken => (htokens token htoken).2.2)
  obtain ⟨other, hother, hplain, hfrom⟩ := Tree.ofRpn_listing hnode
  obtain rfl : other = tree := Except.ok.inj (hother.symm.trans hbuilt)
  exact ⟨node, hnode, hplain, hfrom⟩

end Tree

/-- Validation accepts the listings of terms whose calls fit their functions, and no others; a
listing is that of one term only; and building makes the tree of this term up to runs.
Building ends with this tree and the tree has no holes, so on the way no operand is missing
and no mark is taken for one. -/
theorem validation_and_building_read_one_term (registry : Registry) (context : Context)
    (rpn : List Token) (hkinds : ∀ token ∈ rpn, token.kind ≠ .comma ∧ token.kind ≠ .closeParen) :
    (Rpn.validate registry rpn = .ok () ↔
        ∃ term : Term, term.listing = rpn ∧ term.Callable registry) ∧
      (∀ term other : Term, term.listing = rpn → other.listing = rpn → term = other) ∧
      ((∀ token ∈ rpn, token.kind.isOperator = true →
        (registry.operator? token.surface).isSome = true) →
        (∀ token ∈ rpn, token.kind.isLiteral = true → (Literal.value? context token).isOk = true) →
        ∀ term : Term, term.listing = rpn → term.Callable registry →
          ∃ tree node, Tree.ofRpn registry context rpn = .ok tree ∧
            term.node? registry context = some node ∧ tree.root.plain = node ∧
            tree.root.IsFrom registry) := by
  refine ⟨⟨Rpn.exists_term_of_validate hkinds, ?_⟩, ?_, ?_⟩
  · rintro ⟨term, rfl, hcallable⟩
    exact Rpn.validate_listing hcallable
  · rintro term other rfl hother
    exact Term.listing_injective hother.symm
  · rintro hoperators hliterals term rfl hcallable
    obtain ⟨node, hnode⟩ := term.exists_node hcallable hoperators hliterals
    obtain ⟨tree, htree, hplain, hfrom⟩ := Tree.ofRpn_listing hnode
    exact ⟨tree, node, htree, hnode, hplain, hfrom⟩

def Term.sumOfCall : Term :=
  .infixed ⟨⟨.operator, "+", 11⟩, rfl⟩
    (.call ⟨⟨.openParen, "(", 3⟩, rfl⟩ ⟨⟨.functionName, "max", 0⟩, rfl⟩
      [.atom ⟨⟨.variableName, "x", 4⟩, rfl⟩,
       .prefixed ⟨⟨.unaryOperator, "-u", 7⟩, rfl⟩ (.atom ⟨⟨.variableName, "y", 8⟩, rfl⟩)])
    (.atom ⟨⟨.text, "a", 13⟩, rfl⟩)

theorem sumOfCall_validated_and_built :
    Rpn.validate .standard Term.sumOfCall.listing = .ok () ∧
      ∃ tree node, Tree.ofRpn .standard ⟨34, .halfEven⟩ Term.sumOfCall.listing = .ok tree ∧
        Term.sumOfCall.node? .standard ⟨34, .halfEven⟩ = some node ∧ tree.root.plain = node ∧
        tree.root.IsFrom .standard := by
  have hcallable : Term.sumOfCall.Callable .standard :=
    ⟨⟨⟨_, rfl, by decide⟩, trivial, trivial, trivial⟩, trivial⟩
  obtain ⟨hvalid, -, hbuilt⟩ := validation_and_building_read_one_term .standard ⟨34, .halfEven⟩
    Term.sumOfCall.listing (by decide +kernel)
  exact ⟨hvalid.mpr ⟨_, rfl, hcallable⟩,
    hbuilt (by decide +kernel) (by decide +kernel) _ rfl hcallable⟩

end Formula
