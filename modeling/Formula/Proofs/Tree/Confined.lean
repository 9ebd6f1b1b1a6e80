import Formula.Proofs.Evaluation.ConfinedTree
import Formula.Proofs.Rpn.Listed
import Formula.Proofs.Rpn.Validation
import Formula.Proofs.Tree.Assembly

/-! # Building confined trees

What is built from checked notation is confined to the variables of the text. Building fails only where
a literal has no value, and there.
-/
namespace Formula

variable {registry : Registry} {context : Context} {names : List String} {bound : Nat}

namespace Literal

/-- A literal is a rounded number, a word beyond all numbers, or a text. -/
theorem value?_inversion {token : Token} {value : Value} (h : value? context token = .ok value) :
    (∃ number rounded, context.round number = .ok rounded ∧ value = .ofDecimal rounded) ∨
      (∃ object, value = .host object none) ∨ value = .text token.surface none := by
  have hdecimal {number : Decimal}
      (h : (context.round number).toOption.map Value.ofDecimal = some value) :
      ∃ number rounded, context.round number = .ok rounded ∧ value = .ofDecimal rounded := by
    obtain ⟨rounded, hrounded, rfl⟩ := Option.map_eq_some_iff.mp h
    cases hround : context.round number with
    | error signal =>
      rw [hround] at hrounded
      cases hrounded
    | ok result =>
      rw [hround] at hrounded
      obtain rfl := Option.some.inj hrounded
      exact ⟨number, result, hround, rfl⟩
  unfold value? at h
  dsimp only at h
  split at h
  next found hfound =>
    obtain rfl := Except.ok.inj h
    split at hfound
    next =>
      obtain ⟨number, -, hnumber⟩ := Option.bind_eq_some_iff.mp hfound
      exact .inl (hdecimal hnumber)
    next =>
      unfold decimal? at hfound
      split at hfound
      next => exact .inl (hdecimal hfound)
      next =>
        obtain ⟨word, -, rfl⟩ := Option.map_eq_some_iff.mp hfound
        exact .inr (.inl ⟨_, rfl⟩)
    next =>
      obtain rfl := Option.some.inj hfound
      exact .inr (.inr rfl)
  next => cases h

/-- No literal is bound to a name. -/
theorem binding_value? {token : Token} {value : Value} (h : value? context token = .ok value) :
    value.binding = none := by
  obtain ⟨number, rounded, -, rfl⟩ | ⟨object, rfl⟩ | rfl := value?_inversion h
  · rfl
  · rfl
  · rfl

theorem value?_error {token : Token} {failure : Failure} (h : value? context token = .error failure) :
    failure = .at (.malformedLiteral token.surface) token.offset := by
  unfold value? at h
  dsimp only at h
  split at h
  next => cases h
  next => exact (Except.error.inj h).symm

end Literal

theorem Registry.Confined.binary (hregistry : registry.Confined) {sign : TokenOf .operator}
    (hsign : sign.val.Listable registry names bound) {op : Operator}
    (hop : registry.operator? sign.val.surface = some op) : op.behaviour.Confined 2 := by
  obtain ⟨other, hother, hbinary⟩ := hsign.binary sign.property
  obtain rfl : other = op := Option.some.inj (hother.symm.trans hop)
  have hbehaviour := hregistry.operators hop
  rw [hbinary] at hbehaviour
  exact hbehaviour

theorem Registry.Confined.unary (hregistry : registry.Confined) {sign : TokenOf .unaryOperator}
    (hsign : sign.val.Listable registry names bound) {op : Operator}
    (hop : registry.operator? sign.val.surface = some op) : op.behaviour.Confined 1 := by
  obtain ⟨other, hother, hunary⟩ := hsign.unary sign.property
  obtain rfl : other = op := Option.some.inj (hother.symm.trans hop)
  have hbehaviour := hregistry.operators hop
  rw [hunary] at hbehaviour
  exact hbehaviour

namespace Term

theorem node?_atom_confined {leaf : Leaf} (hleaf : leaf.token.Listable registry names bound)
    {node : Node} (h : (Term.atom leaf).node? registry context = some node) :
    node.Confined names bound := by
  unfold node? at h
  split at h
  next hvariable =>
    obtain rfl := Option.some.inj h
    exact ⟨hleaf.name hvariable, hleaf.offset⟩
  next =>
    cases hvalue : Literal.value? context leaf.token with
    | error failure => simp [hvalue, Except.toOption] at h
    | ok value =>
      simp only [hvalue, Except.toOption, Option.map_some, Option.some.injEq] at h
      subst h
      exact Value.within_of_binding_eq_none (Literal.binding_value? hvalue)

mutual
/-- The tree of a term whose tokens may be listed is confined. -/
theorem node?_confined (hregistry : registry.Confined) : (term : Term) → term.Callable registry →
    (∀ token ∈ term.listing, token.Listable registry names bound) →
    ∀ {node}, term.node? registry context = some node → node.Confined names bound
  | .atom leaf, _, htokens, _, h => node?_atom_confined (htokens leaf.token (by simp [listing])) h
  | .prefixed sign operand, hcallable, htokens, node, h => by
    simp only [node?, bind, Option.bind_eq_some_iff, pure, Option.some.injEq] at h
    obtain ⟨op, hop, _, hoperand, rfl⟩ := h
    have hsign := htokens sign.val (by simp [listing])
    have hconfined := node?_confined hregistry operand hcallable
      (fun token htoken => htokens token (by simp [listing, htoken])) hoperand
    exact ⟨hregistry.unary hsign hop, hsign.offset, hconfined, trivial⟩
  | .infixed sign left right, hcallable, htokens, node, h => by
    simp only [node?, bind, Option.bind_eq_some_iff, pure, Option.some.injEq] at h
    obtain ⟨op, hop, _, hleft, _, hright, rfl⟩ := h
    have hsign := htokens sign.val (by simp [listing])
    have hleftConfined := node?_confined hregistry left hcallable.1
      (fun token htoken => htokens token (by simp [listing, htoken])) hleft
    have hrightConfined := node?_confined hregistry right hcallable.2
      (fun token htoken => htokens token (by simp [listing, htoken])) hright
    exact ⟨hregistry.binary hsign hop, hsign.offset, hleftConfined, hrightConfined, trivial⟩
  | .call mark name arguments, hcallable, htokens, node, h => by
    simp only [node?, bind, Option.bind_eq_some_iff, pure, Option.some.injEq] at h
    obtain ⟨f, hf, _, harguments, rfl⟩ := h
    obtain ⟨⟨g, hg, hcount⟩, hcallables⟩ := hcallable
    obtain rfl : g = f := Option.some.inj (hg.symm.trans hf)
    have hname := htokens name.val (by simp [listing])
    obtain ⟨hlength, hconfined⟩ := nodes?_confined hregistry arguments hcallables
      (fun token htoken => htokens token (by simp [listing, htoken])) harguments
    exact ⟨hregistry.functions hf _ (hlength ▸ hcount), hname.offset, hconfined⟩
theorem nodes?_confined (hregistry : registry.Confined) : (terms : List Term) →
    AllCallable registry terms → (∀ token ∈ listings terms, token.Listable registry names bound) →
    ∀ {nodes}, nodes? registry context terms = some nodes →
      nodes.length = terms.length ∧ Node.AllConfined names bound nodes
  | [], _, _, nodes, h => by
    obtain rfl := Option.some.inj h
    exact ⟨rfl, trivial⟩
  | term :: terms, hcallable, htokens, nodes, h => by
    simp only [nodes?, bind, Option.bind_eq_some_iff, pure, Option.some.injEq] at h
    obtain ⟨_, hterm, _, hterms, rfl⟩ := h
    have hfirst := node?_confined hregistry term hcallable.1
      (fun token htoken => htokens token (by simp [listings, htoken])) hterm
    obtain ⟨hlength, hrest⟩ := nodes?_confined hregistry terms hcallable.2
      (fun token htoken => htokens token (by simp [listings, htoken])) hterms
    exact ⟨by simp [hlength], hfirst, hrest⟩
end

end Term

namespace Assembly

open Term

theorem step_atom_error {leaf : Leaf} (h : (Term.atom leaf).node? registry context = none)
    (hleaf : leaf.token.offset < bound) (assembly : Assembly) :
    ∃ failure, failure.LiesIn 0 bound ∧
      step registry context assembly leaf.token = .error failure := by
  unfold node? at h
  split at h
  next => cases h
  next hvariable =>
    have hliteral := leaf.isLiteral hvariable
    obtain ⟨⟨kind, surface, offset⟩, isLeaf⟩ := leaf
    cases hvalue : Literal.value? context ⟨kind, surface, offset⟩ with
    | ok value => simp [hvalue, Except.toOption] at h
    | error failure =>
      have hfailure := Literal.value?_error hvalue
      refine ⟨failure, hfailure ▸ Failure.liesIn_at _ hleaf, ?_⟩
      cases kind with
      | number | hexadecimal | text => simp [step, hvalue, bind, Except.bind]
      | _ => cases hliteral

mutual
/-- A term without a tree has a literal without a value, and there building fails. -/
theorem steps_listing_error (stack : List (Option Node)) (next : Nat) (rest : List Token) :
    (term : Term) → term.Callable registry →
    (∀ token ∈ term.listing, token.Listable registry names bound) →
    term.node? registry context = none →
      ∃ failure, failure.LiesIn 0 bound ∧
        steps registry context ⟨stack, next⟩ (term.listing ++ rest) = .error failure
  | .atom leaf, _, htokens, h => by
    have hleaf := htokens leaf.token (by simp [listing])
    obtain ⟨failure, hlies, hstep⟩ := step_atom_error h hleaf.offset ⟨stack, next⟩
    exact ⟨failure, hlies, by rw [listing, List.singleton_append, steps_cons, hstep]; rfl⟩
  | .prefixed sign operand, hcallable, htokens, h => by
    obtain ⟨op, hop, -⟩ := (htokens sign.val (by simp [listing])).unary sign.property
    have hoperand : operand.node? registry context = none := by
      cases hnode : operand.node? registry context with
      | none => rfl
      | some node => simp [node?, hop, hnode] at h
    rw [listing, List.append_assoc]
    exact steps_listing_error stack next _ operand hcallable
      (fun token htoken => htokens token (by simp [listing, htoken])) hoperand
  | .infixed sign left right, hcallable, htokens, h => by
    obtain ⟨op, hop, -⟩ := (htokens sign.val (by simp [listing])).binary sign.property
    rw [listing, List.append_assoc, List.append_assoc]
    cases hleft : left.node? registry context with
    | none =>
      exact steps_listing_error stack next _ left hcallable.1
        (fun token htoken => htokens token (by simp [listing, htoken])) hleft
    | some leftNode =>
      have hright : right.node? registry context = none := by
        cases hnode : right.node? registry context with
        | none => rfl
        | some node => simp [node?, hop, hleft, hnode] at h
      obtain ⟨built, after, -, -, hsteps⟩ := steps_listing stack next _ left hleft
      rw [hsteps]
      exact steps_listing_error _ after _ right hcallable.2
        (fun token htoken => htokens token (by simp [listing, htoken])) hright
  | .call mark name arguments, hcallable, htokens, h => by
    obtain ⟨⟨f, hf, -⟩, hcallables⟩ := hcallable
    have harguments : nodes? registry context arguments = none := by
      cases hnodes : nodes? registry context arguments with
      | none => rfl
      | some nodes => simp [node?, hf, hnodes] at h
    rw [listing, List.cons_append, List.append_assoc, steps_cons, step_mark, Except.bind]
    exact steps_listings_error _ next _ arguments hcallables
      (fun token htoken => htokens token (by simp [listing, htoken])) harguments
theorem steps_listings_error (stack : List (Option Node)) (next : Nat) (rest : List Token) :
    (terms : List Term) → AllCallable registry terms →
    (∀ token ∈ listings terms, token.Listable registry names bound) →
    nodes? registry context terms = none →
      ∃ failure, failure.LiesIn 0 bound ∧
        steps registry context ⟨stack, next⟩ (listings terms ++ rest) = .error failure
  | [], _, _, h => by cases h
  | term :: terms, hcallable, htokens, h => by
    rw [listings, List.append_assoc]
    cases hterm : term.node? registry context with
    | none =>
      exact steps_listing_error stack next _ term hcallable.1
        (fun token htoken => htokens token (by simp [listings, htoken])) hterm
    | some node =>
      have hterms : nodes? registry context terms = none := by
        cases hnodes : nodes? registry context terms with
        | none => rfl
        | some nodes => simp [nodes?, hterm, hnodes] at h
      obtain ⟨built, after, -, -, hsteps⟩ := steps_listing stack next _ term hterm
      rw [hsteps]
      exact steps_listings_error _ after _ terms hcallable.2
        (fun token htoken => htokens token (by simp [listings, htoken])) hterms
end

end Assembly

/-- Valid notation of listable tokens gives a confined tree, or a failure at a literal. -/
theorem Tree.ofRpn_confined (hregistry : registry.Confined) {rpn : List Token}
    (hrpn : ∀ token ∈ rpn, token.Listable registry names bound)
    (hvalid : Rpn.validate registry rpn = .ok ()) :
    Yields (fun tree => tree.root.Confined names bound) (Failure.LiesIn 0 bound)
      (Tree.ofRpn registry context rpn) := by
  obtain ⟨term, rfl, hcallable⟩ :=
    Rpn.exists_term_of_validate (fun token htoken => (hrpn token htoken).kind) hvalid
  cases hnode : term.node? registry context with
  | none =>
    obtain ⟨failure, hlies, hsteps⟩ := Assembly.steps_listing_error [] 0 [] term hcallable hrpn hnode
    rw [List.append_nil] at hsteps
    rw [Tree.ofRpn, hsteps]
    exact .error hlies
  | some node =>
    obtain ⟨tree, htree, hplain, -⟩ := Tree.ofRpn_listing hnode
    have hconfined := term.node?_confined hregistry hcallable hrpn hnode
    rw [htree]
    exact .ok (tree.root.confined_of_plain (hplain ▸ hconfined))

end Formula
