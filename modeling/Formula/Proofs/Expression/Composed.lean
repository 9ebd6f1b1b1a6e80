import Formula.Proofs.Expression.NumberText
import Formula.Proofs.Expression.Script

/-! # Texts put together from texts

Sources in parentheses may be the operands of a larger text: the arguments of a call, or the two sides of an
operator. The larger text has a tree that is put together in the same way from the trees of the sources, but
for places and numbers.
-/
namespace Formula

open Lexeme Rpn

def enclosedText (source : String) : String := "(" ++ source ++ ")"

def callText (name : String) (operands : List String) : String :=
  name ++ "(" ++ ", ".intercalate operands ++ ")"

def operationText (symbol left right : String) : String :=
  "(" ++ left ++ " " ++ symbol ++ " " ++ right ++ ")"

namespace Registry

/-- Wherever an operand may stand, the text is read as a term that makes this node. -/
def Spells (registry : Registry) (context : Context) (text : String) (node : Node) : Prop :=
  ∃ (tokens : List Token) (term : Term), OperandScanned registry tokens text ∧
    OperandListed registry tokens term.listing ∧ term.Callable registry ∧
      term.Makes registry context node

namespace Spells

variable {registry : Registry} {context : Context}

theorem enclosed {source : String} {tree : Tree} (h : registry.treeOf context source = .ok tree) :
    registry.Spells context (enclosedText source) tree.root := by
  obtain ⟨term, ⟨tokens, htokens, hchecked, hcallable⟩, hmakes, -⟩ := exists_term_of_treeOf h
  exact ⟨Term.enclosed tokens, term, .enclosed htokens,
    operandListed_enclosed (successive_of_tokenize htokens) hchecked, hcallable, hmakes⟩

/-- A number that is scanned as one token stands for its value. -/
theorem number {text : String} {value : Value} (htokens : tokenize registry text = .ok [⟨.number, text, 0⟩])
    (hvalue : Literal.value? context ⟨.number, text, 0⟩ = .ok value) :
    registry.Spells context text (.constant 0 text value) := by
  let leaf : Leaf := ⟨⟨.number, text, 0⟩, rfl⟩
  have hscanned : OperandScanned registry [leaf.token] leaf.token.written :=
    .leaf (scannable_of_tokenize (.inl rfl) htokens 0)
  refine ⟨[leaf.token], .atom leaf, hscanned, .leaf leaf, trivial, fun other hother => ?_⟩
  cases other with
  | atom found =>
    have hleaf : found.unplaced = leaf.unplaced := Term.atom.inj hother
    have hkind : found.token.kind = .number := Leaf.kind_of_unplaced hleaf
    have hsurface : found.token.surface = text := Leaf.surface_of_unplaced hleaf
    rw [← hsurface]
    exact .constant (by rw [hkind]; rfl) (Literal.value?_unplaced (Leaf.token_of_unplaced hleaf) hvalue)
  | prefixed | infixed | call => simp [Term.unplaced] at hother

theorem exists_further {texts : List String} {nodes : List Node}
    (h : List.Forall₂ (registry.Spells context) texts nodes) :
    ∃ (tokens : List Token) (terms : List Term), FurtherScanned registry tokens texts ∧
      FurtherListed registry tokens (Term.listings terms) ∧ Term.AllCallable registry terms ∧
        Term.AllMake registry context terms nodes ∧ terms.length = nodes.length := by
  induction h with
  | nil => exact ⟨[], [], .nil, .nil, trivial, .nil, rfl⟩
  | cons hnext _ ih =>
    obtain ⟨tokens, term, hscanned, hlisted, hcallable, hmakes⟩ := hnext
    obtain ⟨more, terms, hfurther, hlistedAll, hcallableAll, hmakeAll, hlength⟩ := ih
    exact ⟨_, term :: terms, .cons hscanned hfurther, .cons hlisted hlistedAll, ⟨hcallable, hcallableAll⟩,
      .cons hmakes hmakeAll, congrArg Nat.succ hlength⟩

theorem exists_arguments {texts : List String} {nodes : List Node}
    (h : List.Forall₂ (registry.Spells context) texts nodes) :
    ∃ (tokens : List Token) (terms : List Term), ArgumentsScanned registry tokens texts ∧
      ArgumentsListed registry tokens (Term.listings terms) ∧ Term.AllCallable registry terms ∧
        Term.AllMake registry context terms nodes ∧ terms.length = nodes.length := by
  cases h with
  | nil => exact ⟨[], [], .nil, .nil, trivial, .nil, rfl⟩
  | cons hnext hrest =>
    obtain ⟨tokens, term, hscanned, hlisted, hcallable, hmakes⟩ := hnext
    obtain ⟨more, terms, hfurther, hlistedAll, hcallableAll, hmakeAll, hlength⟩ := exists_further hrest
    exact ⟨_, term :: terms, .cons hscanned hfurther, .cons hlisted hlistedAll, ⟨hcallable, hcallableAll⟩,
      .cons hmakes hmakeAll, congrArg Nat.succ hlength⟩

theorem call {name : String} {f : Function} {texts : List String} {nodes : List Node}
    (hname : Registry.isName name = true) (hf : registry.function? name = some f)
    (hcount : f.variadic = false → (nodes.length : Int) = f.arity)
    (h : List.Forall₂ (registry.Spells context) texts nodes) :
    registry.Spells context (callText name texts) (.call 0 name f 0 nodes) := by
  let called : TokenOf .functionName := ⟨⟨.functionName, name, 0⟩, rfl⟩
  have hscannable : called.val.Scannable registry := hname
  obtain ⟨tokens, terms, hscanned, hlisted, hcallable, hmakes, hlength⟩ := exists_arguments h
  have htext : OperandScanned registry
      (called.val :: Term.opening.val :: (tokens ++ [Term.closing.val])) (callText name texts) :=
    .call hscanned rfl called.property hscannable
  have haccepts : registry.Accepts name terms.length := ⟨f, hf, by rwa [hlength]⟩
  exact ⟨_, .call Term.opening called terms, htext, .call hlisted Term.opening called,
    ⟨haccepts, hcallable⟩, .call hmakes Term.opening hf⟩

theorem operation {symbol : String} {op : Operator} {left right : String} {first second : Node}
    (hkeyed : registry.Keyed) (hop : registry.operator? symbol = some op) (hunary : op.unary = false)
    (hchainable : op.chainable = false) (h : registry.Spells context left first)
    (k : registry.Spells context right second) :
    registry.Spells context (operationText symbol left right) (.operation 0 symbol op 0 [first, second]) := by
  let sign : TokenOf .operator := ⟨⟨.operator, symbol, 0⟩, rfl⟩
  obtain ⟨tokens, term, hscanned, hlisted, hcallable, hmakes⟩ := h
  obtain ⟨more, further, kscanned, klisted, kcallable, kmakes⟩ := k
  have hnode : (Assembly.binary symbol op 0 first second 0).1 = .operation 0 symbol op 0 [first, second] := by
    simp [Assembly.binary, hchainable]
  have hjoined : (Term.infixed sign term further).Makes registry context
      (Assembly.binary symbol op 0 first second 0).1 := hmakes.infixed kmakes hop
  have htext : OperandScanned registry
      (Term.opening.val :: (tokens ++ sign.val :: (more ++ [Term.closing.val])))
        (operationText symbol left right) :=
    hscanned.infixed kscanned sign.property (hkeyed.scannable_operator sign.property hop hunary)
  exact ⟨_, .infixed sign term further, htext, hlisted.infixed klisted sign hop hunary,
    ⟨hcallable, kcallable⟩, hnode ▸ hjoined⟩

/-- By itself such a text has the tree, but for places and numbers. -/
theorem exists_tree {text : String} {node : Node} (h : registry.Spells context text node) :
    ∃ tree, registry.treeOf context text = .ok tree ∧ tree.root.unplaced = node.unplaced := by
  obtain ⟨tokens, term, hscanned, hlisted, hcallable, hmakes⟩ := h
  obtain ⟨found, hfound, hunplaced⟩ := tokenize_of_scansTo (hscanned.scans none [] .nil)
  obtain ⟨whole, hread, hplaces⟩ := exists_readAs_like hfound hunplaced (hlisted.checked_eq hcallable)
  exact exists_tree_of_makes hmakes hread hplaces

end Spells

end Registry

end Formula
