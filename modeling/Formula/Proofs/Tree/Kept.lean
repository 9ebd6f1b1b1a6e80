import Formula.Node
import Formula.Proofs.Failure.Place

/-! # What building keeps

Building makes leaves, and puts operators and functions of the registry on trees that it has made before. So
what holds of leaves and is kept by these holds of every tree that waits after any token, and of the tree
that is built.
-/
namespace Formula

namespace Assembly

variable {registry : Registry} {context : Context} {fine : Node → Prop}

structure Kept (registry : Registry) (context : Context) (fine : Node → Prop) : Prop where
  constant : ∀ id label ⦃token value⦄, Literal.value? context token = .ok value →
    fine (.constant id label value)
  reference : ∀ id name offset, fine (.reference id name offset)
  hole : ∀ id label, fine (.hole id label)
  prefixed : ∀ id ⦃label op⦄ offset ⦃operand⦄, registry.operator? label = some op → fine operand →
    fine (.operation id label op offset [operand])
  infixed : ∀ ⦃label op⦄ offset ⦃left right⦄ next, registry.operator? label = some op → fine left →
    fine right → fine (binary label op offset left right next).1
  call : ∀ id ⦃label f⦄ offset ⦃arguments⦄, registry.function? label = some f →
    (∀ node ∈ arguments, fine node) → fine (.call id label f offset arguments)

def Holds (fine : Node → Prop) (stack : List (Option Node)) : Prop :=
  ∀ place ∈ stack, ∀ node ∈ place, fine node

theorem Holds.push {stack : List (Option Node)} (h : Holds fine stack) {node : Node} (hnode : fine node) :
    Holds fine (some node :: stack) := by
  refine List.forall_mem_cons.mpr ⟨fun other hother => ?_, h⟩
  obtain rfl := Option.some.inj hother
  exact hnode

theorem Holds.splitArguments {stack : List (Option Node)} (h : Holds fine stack) {arguments : List Node}
    (harguments : ∀ node ∈ arguments, fine node) :
    (∀ node ∈ (splitArguments arguments stack).1, fine node) ∧
      Holds fine (splitArguments arguments stack).2 := by
  induction stack generalizing arguments with
  | nil => exact ⟨harguments, h⟩
  | cons place rest ih =>
    obtain ⟨hplace, hrest⟩ := List.forall_mem_cons.mp h
    cases place with
    | none => exact ⟨harguments, hrest⟩
    | some node => exact ih hrest (List.forall_mem_cons.mpr ⟨hplace node rfl, harguments⟩)

theorem operator?_yields (registry : Registry) (token : Token) :
    Yields (fun op => registry.operator? token.surface = some op) (fun _ => True)
      (operator? registry token) := by
  unfold operator?
  split
  next op hop => exact .ok hop
  next => exact .error trivial

theorem function?_yields (registry : Registry) (token : Token) :
    Yields (fun f => registry.function? token.surface = some f) (fun _ => True)
      (function? registry token) := by
  unfold function?
  split
  next f hf => exact .ok hf
  next => exact .error trivial

namespace Kept

variable (h : Kept registry context fine)

include h

theorem filled {place : Option Node} (hplace : ∀ node ∈ place, fine node) (next : Nat) :
    fine (filled next place) := by
  cases place with
  | none => exact h.hole next _
  | some node => exact hplace node rfl

theorem step {assembly : Assembly} (hassembly : Holds fine assembly.stack) (token : Token) :
    Yields (fun after => Holds fine after.stack) (fun _ => True) (step registry context assembly token) := by
  obtain ⟨stack, next⟩ := assembly
  obtain ⟨kind, surface, offset⟩ := token
  have hop := operator?_yields registry ⟨kind, surface, offset⟩
  have hf := function?_yields registry ⟨kind, surface, offset⟩
  cases kind with
  | unaryOperator =>
    refine hop.bind fun op hop => ?_
    cases stack with
    | nil => exact .error trivial
    | cons operand rest =>
      obtain ⟨hoperand, hrest⟩ := List.forall_mem_cons.mp hassembly
      exact .ok (Holds.push hrest (h.prefixed _ _ hop (h.filled hoperand _)))
  | operator =>
    rcases stack with _ | ⟨right, _ | ⟨left, rest⟩⟩
    · exact .error trivial
    · exact .error trivial
    · obtain ⟨hright, hbelow⟩ := List.forall_mem_cons.mp hassembly
      obtain ⟨hleft, hrest⟩ := List.forall_mem_cons.mp hbelow
      refine hop.bind fun op hop => ?_
      exact .ok (Holds.push hrest (h.infixed _ _ hop (h.filled hleft _) (h.filled hright _)))
  | functionName =>
    obtain ⟨harguments, hrest⟩ := hassembly.splitArguments (List.forall_mem_nil _)
    refine hf.bind fun f hf => ?_
    exact .ok (hrest.push (h.call _ _ hf harguments))
  | openParen => exact .ok (List.forall_mem_cons.mpr ⟨nofun, hassembly⟩)
  | variableName => exact .ok (hassembly.push (h.reference _ _ _))
  | number | hexadecimal | text =>
    have hvalue {token : Token} : Yields (fun value => Literal.value? context token = .ok value)
        (fun _ => True) (Literal.value? context token) := by
      cases hliteral : Literal.value? context token with
      | error failure => exact .error trivial
      | ok value => exact .ok rfl
    exact hvalue.bind fun value hvalue => .ok (hassembly.push (h.constant _ _ hvalue))
  | closeParen | comma => exact .error trivial

theorem steps {assembly : Assembly} (hassembly : Holds fine assembly.stack) (tokens : List Token) :
    Yields (fun after => Holds fine after.stack) (fun _ => True)
      (steps registry context assembly tokens) := by
  induction tokens generalizing assembly with
  | nil => exact .ok hassembly
  | cons token tokens ih => exact (h.step hassembly token).bind fun after hafter => ih hafter

/-- It holds of the tree that is built. -/
theorem ofRpn {rpn : List Token} {tree : Tree} (hbuilt : Tree.ofRpn registry context rpn = .ok tree) :
    fine tree.root := by
  have hempty : Holds fine (Assembly.mk [] 0).stack := List.forall_mem_nil _
  obtain ⟨⟨stack, next⟩, hsteps, hroot⟩ := exists_of_bind_eq_ok hbuilt
  have hstack := h.steps hempty rpn
  rw [hsteps] at hstack
  rcases stack with _ | ⟨place, _ | ⟨second, rest⟩⟩
  · cases hroot
  · obtain rfl := Except.ok.inj hroot
    exact h.filled (hstack.of_ok place List.mem_cons_self) _
  · cases hroot

end Kept

end Assembly

end Formula
