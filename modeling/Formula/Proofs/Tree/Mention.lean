import Formula.Proofs.Tree.Plain
import Mathlib.Data.List.Forall2

/-! # What a tree mentions

A tree mentions its constants, names, operators and calls in postfix order, and a run one step after another.
The tree of a term mentions the tokens that the term lists, in their order.
-/
namespace Formula

inductive Mention where
  | constant (label : String) (value : Value)
  | reference (name : String) (offset : Nat)
  | operator (label : String) (op : Operator) (offset operands : Nat)
  /-- The start of the arguments of a call. -/
  | opening
  | call (label : String) (function : Function) (offset : Nat)

mutual
def Node.mentions : Node → List Mention
  | .constant _ label value => [.constant label value]
  | .reference _ name offset => [.reference name offset]
  | .operation _ label op offset operands =>
    Node.allMentions operands ++ [.operator label op offset operands.length]
  | .chain _ label op run => run.mentions label op
  | .call _ label f offset arguments => .opening :: (Node.allMentions arguments ++ [.call label f offset])
  | .hole .. => [.opening]
def Node.allMentions : List Node → List Mention
  | [] => []
  | node :: nodes => node.mentions ++ Node.allMentions nodes
def Run.mentions (label : String) (op : Operator) : Run → List Mention
  | .pair left offset right => left.mentions ++ right.mentions ++ [.operator label op offset 2]
  | .extended run offset right =>
    run.mentions label op ++ right.mentions ++ [.operator label op offset 2]
end

mutual
/-- Taking runs apart leaves the order of what is mentioned. -/
theorem Node.mentions_plain : (node : Node) → node.plain.mentions = node.mentions
  | .constant .. | .reference .. | .hole .. => rfl
  | .operation _ _ _ _ operands => by
    simp only [Node.plain, Node.mentions, Node.allMentions_plainAll operands, Node.length_plainAll]
  | .chain _ label op run => by simp only [Node.plain, Node.mentions, run.mentions_plain label op]
  | .call _ _ _ _ arguments => by
    simp only [Node.plain, Node.mentions, Node.allMentions_plainAll arguments]
theorem Node.allMentions_plainAll : (nodes : List Node) →
    Node.allMentions (Node.plainAll nodes) = Node.allMentions nodes
  | [] => rfl
  | node :: nodes => by
    simp only [Node.plainAll, Node.allMentions, node.mentions_plain, Node.allMentions_plainAll nodes]
theorem Run.mentions_plain (label : String) (op : Operator) : (run : Run) →
    (run.plain label op).mentions = run.mentions label op
  | .pair left _ right => by
    simp [Run.plain, Run.mentions, Node.mentions, Node.allMentions, left.mentions_plain,
      right.mentions_plain]
  | .extended run _ right => by
    simp [Run.plain, Run.mentions, Node.mentions, Node.allMentions, run.mentions_plain label op,
      right.mentions_plain]
end

def Token.Mentioned (registry : Registry) (context : Context) (token : Token) : Mention → Prop
  | .constant label value =>
    token.kind.isLiteral = true ∧ token.surface = label ∧ Literal.value? context token = .ok value
  | .reference name offset => token = ⟨.variableName, name, offset⟩
  | .operator label op offset operands =>
    (token = ⟨.unaryOperator, label, offset⟩ ∧ operands = 1 ∨
      token = ⟨.operator, label, offset⟩ ∧ operands = 2) ∧ registry.operator? label = some op
  | .opening => token.kind = .openParen
  | .call label f offset => token = ⟨.functionName, label, offset⟩ ∧ registry.function? label = some f

namespace Term

variable {registry : Registry} {context : Context}

theorem mentioned_atom {leaf : Leaf} {node : Node}
    (h : (Term.atom leaf).node? registry context = some node) :
    List.Forall₂ (Token.Mentioned registry context) [leaf.token] node.mentions := by
  unfold node? at h
  split at h
  next hvariable =>
    obtain rfl := Option.some.inj h
    refine .cons ?_ .nil
    exact congrArg (fun kind => (⟨kind, leaf.token.surface, leaf.token.offset⟩ : Token)) hvariable
  next hvariable =>
    cases hvalue : Literal.value? context leaf.token with
    | error failure => simp [hvalue, Except.toOption] at h
    | ok value =>
      simp only [hvalue, Except.toOption, Option.map_some, Option.some.injEq] at h
      subst h
      exact .cons ⟨leaf.isLiteral hvariable, rfl, hvalue⟩ .nil

theorem eq_of_kind {kind : TokenKind} (token : TokenOf kind) :
    token.val = ⟨kind, token.val.surface, token.val.offset⟩ :=
  congrArg (fun kind => (⟨kind, token.val.surface, token.val.offset⟩ : Token)) token.property

mutual
/-- The tree of a term mentions the tokens that the term lists. -/
theorem mentioned_node? : (term : Term) → {node : Node} → term.node? registry context = some node →
    List.Forall₂ (Token.Mentioned registry context) term.listing node.mentions
  | .atom leaf, node, h => mentioned_atom h
  | .prefixed sign operand, node, h => by
    simp only [node?, bind, Option.bind_eq_some_iff, pure, Option.some.injEq] at h
    obtain ⟨op, hop, inner, hinner, rfl⟩ := h
    have hsign : Token.Mentioned registry context sign.val
        (.operator sign.val.surface op sign.val.offset 1) := ⟨.inl ⟨eq_of_kind sign, rfl⟩, hop⟩
    simpa [listing, Node.mentions, Node.allMentions] using
      List.rel_append (mentioned_node? operand hinner) (.cons hsign .nil)
  | .infixed sign left right, node, h => by
    simp only [node?, bind, Option.bind_eq_some_iff, pure, Option.some.injEq] at h
    obtain ⟨op, hop, first, hfirst, second, hsecond, rfl⟩ := h
    have hsign : Token.Mentioned registry context sign.val
        (.operator sign.val.surface op sign.val.offset 2) := ⟨.inr ⟨eq_of_kind sign, rfl⟩, hop⟩
    have hoperands := List.rel_append (mentioned_node? left hfirst) (mentioned_node? right hsecond)
    simpa [listing, Node.mentions, Node.allMentions] using List.rel_append hoperands (.cons hsign .nil)
  | .call mark name arguments, node, h => by
    simp only [node?, bind, Option.bind_eq_some_iff, pure, Option.some.injEq] at h
    obtain ⟨f, hf, nodes, hnodes, rfl⟩ := h
    have hname : Token.Mentioned registry context name.val
        (.call name.val.surface f name.val.offset) := ⟨eq_of_kind name, hf⟩
    exact .cons mark.property (List.rel_append (mentioned_nodes? arguments hnodes) (.cons hname .nil))
theorem mentioned_nodes? : (terms : List Term) → {nodes : List Node} →
    nodes? registry context terms = some nodes →
      List.Forall₂ (Token.Mentioned registry context) (listings terms) (Node.allMentions nodes)
  | [], nodes, h => by
    obtain rfl := Option.some.inj h
    exact .nil
  | term :: terms, nodes, h => by
    simp only [nodes?, bind, Option.bind_eq_some_iff, pure, Option.some.injEq] at h
    obtain ⟨node, hnode, rest, hrest, rfl⟩ := h
    exact List.rel_append (mentioned_node? term hnode) (mentioned_nodes? terms hrest)
end

end Term

end Formula
