import Formula.Node
import Formula.Proofs.Rpn.Term

/-! # Plain trees

In a plain tree every operator has a node of its own with its operands below it, and nodes have no
numbers. A built tree becomes plain by taking its runs apart; a term becomes a plain tree by looking
up its operators and functions and reading its literals.
-/
namespace Formula

mutual
/-- The tree with its runs taken apart into operations on two operands, and without numbers. -/
def Node.plain : Node → Node
  | .constant _ label value => .constant 0 label value
  | .reference _ name offset => .reference 0 name offset
  | .operation _ label op offset operands => .operation 0 label op offset (Node.plainAll operands)
  | .chain _ label op run => run.plain label op
  | .call _ label f offset arguments => .call 0 label f offset (Node.plainAll arguments)
  | .hole _ label => .hole 0 label
def Node.plainAll : List Node → List Node
  | [] => []
  | node :: nodes => node.plain :: Node.plainAll nodes
def Run.plain (label : String) (op : Operator) : Run → Node
  | .pair left offset right => .operation 0 label op offset [left.plain, right.plain]
  | .extended run offset right => .operation 0 label op offset [run.plain label op, right.plain]
end

@[simp] theorem Node.length_plainAll (nodes : List Node) :
    (Node.plainAll nodes).length = nodes.length := by
  induction nodes with
  | nil => rfl
  | cons node nodes ih => simp [Node.plainAll, ih]

mutual
/-- Operators and functions are the ones that the registry has under the labels, runs are of
operators that may run on, and no mark stands for an operand. -/
def Node.IsFrom (registry : Registry) : Node → Prop
  | .constant .. | .reference .. => True
  | .hole .. => False
  | .operation _ label op _ operands =>
    registry.operator? label = some op ∧ Node.AllFrom registry operands
  | .chain _ label op run =>
    registry.operator? label = some op ∧ op.chainable = true ∧ run.IsFrom registry
  | .call _ label f _ arguments =>
    registry.function? label = some f ∧ Node.AllFrom registry arguments
def Node.AllFrom (registry : Registry) : List Node → Prop
  | [] => True
  | node :: nodes => node.IsFrom registry ∧ Node.AllFrom registry nodes
def Run.IsFrom (registry : Registry) : Run → Prop
  | .pair left _ right => left.IsFrom registry ∧ right.IsFrom registry
  | .extended run _ right => run.IsFrom registry ∧ right.IsFrom registry
end

def TokenKind.isLiteral : TokenKind → Bool
  | number | hexadecimal | text => true
  | _ => false

theorem Leaf.isLiteral (leaf : Leaf) (h : leaf.token.kind ≠ .variableName) :
    leaf.token.kind.isLiteral = true := by
  obtain ⟨⟨kind, surface, offset⟩, isLeaf⟩ := leaf
  cases kind <;> first | rfl | exact absurd rfl h | exact isLeaf

mutual
def Term.node? (registry : Registry) (context : Context) : Term → Option Node
  | .atom leaf =>
    if leaf.token.kind = .variableName then
      some (.reference 0 leaf.token.surface leaf.token.offset)
    else (Literal.value? context leaf.token).toOption.map (.constant 0 leaf.token.surface)
  | .prefixed sign operand => do
    let op ← registry.operator? sign.val.surface
    let operand ← operand.node? registry context
    return .operation 0 sign.val.surface op sign.val.offset [operand]
  | .infixed sign left right => do
    let op ← registry.operator? sign.val.surface
    let left ← left.node? registry context
    let right ← right.node? registry context
    return .operation 0 sign.val.surface op sign.val.offset [left, right]
  | .call _ name arguments => do
    let f ← registry.function? name.val.surface
    let arguments ← Term.nodes? registry context arguments
    return .call 0 name.val.surface f name.val.offset arguments
def Term.nodes? (registry : Registry) (context : Context) : List Term → Option (List Node)
  | [] => some []
  | term :: terms => do
    let node ← term.node? registry context
    let nodes ← Term.nodes? registry context terms
    return node :: nodes
end

end Formula
