import Formula.Proofs.Evaluation.Invariant
import Formula.Proofs.Tree.Kept

/-! # What built trees give

Building puts the behaviours of the registry and the values of literals together. If these give fine
values, then so does every tree that is built.
-/
namespace Formula

structure Registry.Gives (settings : Settings) (fine : Value → Prop) (registry : Registry) : Prop where
  operators : ∀ ⦃surface op⦄, registry.operator? surface = some op → op.behaviour.Gives settings fine
  functions : ∀ ⦃name f⦄, registry.function? name = some f → f.behaviour.Gives settings fine

variable {settings : Settings} {fine : Value → Prop} {registry : Registry} {context : Context}

theorem Node.allGive_iff {nodes : List Node} :
    Node.AllGive settings fine nodes ↔ ∀ node ∈ nodes, node.Gives settings fine := by
  induction nodes with
  | nil => simp [Node.AllGive]
  | cons node nodes ih => simp [Node.AllGive, ih]

namespace Assembly

variable {left right : Node}

/-- A run goes on with the operator it has. -/
theorem binary_gives (label : String) {op : Operator} (hop : op.behaviour.Gives settings fine)
    (offset : Nat) (hleft : left.Gives settings fine) (hright : right.Gives settings fine) (next : Nat) :
    (binary label op offset left right next).1.Gives settings fine := by
  have hpair : (Node.chain next label op (.pair left offset right)).Gives settings fine :=
    ⟨hop, hleft, hright⟩
  unfold binary
  split
  · exact ⟨hop, hleft, hright, trivial⟩
  cases left with
  | chain id chained first run =>
    obtain ⟨hfirst, hrun⟩ := hleft
    dsimp only
    split
    · exact ⟨hfirst, hrun, hright⟩
    · exact hpair
  | constant | reference | operation | call | hole => exact hpair

variable (hregistry : registry.Gives settings fine)
  (hliterals : ∀ ⦃token value⦄, Literal.value? context token = .ok value → fine value)

include hregistry hliterals

/-- What building makes is a literal, a reference, or a behaviour on what was made before. -/
theorem kept_gives : Kept registry context (Node.Gives settings fine) where
  constant _ _ _ _ hvalue := hliterals hvalue
  reference _ _ _ := trivial
  hole _ _ := trivial
  prefixed _ _ _ _ _ hop hoperand := ⟨hregistry.operators hop, hoperand, trivial⟩
  infixed label _ offset _ _ next hop hleft hright :=
    binary_gives label (hregistry.operators hop) offset hleft hright next
  call _ _ _ _ _ hf harguments := ⟨hregistry.functions hf, Node.allGive_iff.mpr harguments⟩

end Assembly

/-- Every tree that is built gives fine values. -/
theorem Tree.ofRpn_gives (hregistry : registry.Gives settings fine)
    (hliterals : ∀ ⦃token value⦄, Literal.value? context token = .ok value → fine value)
    {rpn : List Token} {tree : Tree} (h : Tree.ofRpn registry context rpn = .ok tree) :
    tree.root.Gives settings fine :=
  (Assembly.kept_gives hregistry hliterals).ofRpn h

end Formula
