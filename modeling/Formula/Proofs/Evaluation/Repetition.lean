import Formula.Proofs.Evaluation.Run

/-! # Evaluating again

A tree has the same outcome however often its nodes were forced before, as long as no behaviour asks for
these counts. This holds whatever room the stack has.
-/
namespace Formula

structure Registry.Discreet (registry : Registry) : Prop where
  operators : ∀ label op, registry.operator? label = some op → op.behaviour.Discreet
  functions : ∀ label f, registry.function? label = some f → f.behaviour.Discreet

theorem Registry.Keeps.discreet {registry : Registry} (h : registry.Keeps) : registry.Discreet :=
  ⟨h.operators, h.functions⟩

variable {registry : Registry} {settings : Settings}

mutual
theorem Node.agreement_self (hdiscreet : registry.Discreet) : (node : Node) → node.IsFrom registry →
    (Simulation.agreement True).Nodes settings node node
  | .constant .., _ => .constant trivial trivial
  | .reference _ name _, _ => .reference trivial rfl fun held => Simulation.agreement_reads held name
  | .operation _ label op _ operands, hfrom =>
    .operation trivial rfl (Simulation.agreement_behaves (hdiscreet.operators label op hfrom.1))
      (Node.allAgreement_self hdiscreet operands hfrom.2)
  | .chain _ label op run, hfrom =>
    .chain trivial (Simulation.agreement_behaves (hdiscreet.operators label op hfrom.1))
      (Run.agreement_self hdiscreet run hfrom.2.2)
  | .call _ label f _ arguments, hfrom =>
    .call trivial rfl (Simulation.agreement_behaves (hdiscreet.functions label f hfrom.1))
      (Node.allAgreement_self hdiscreet arguments hfrom.2)
  | .hole .., hfrom => hfrom.elim
theorem Node.allAgreement_self (hdiscreet : registry.Discreet) : (nodes : List Node) →
    Node.AllFrom registry nodes → (Simulation.agreement True).AllNodes settings nodes nodes
  | [], _ => .nil
  | node :: nodes, hfrom =>
    .cons (Node.agreement_self hdiscreet node hfrom.1) (Node.allAgreement_self hdiscreet nodes hfrom.2)
theorem Run.agreement_self (hdiscreet : registry.Discreet) : (run : Run) → run.IsFrom registry →
    (Simulation.agreement True).Runs settings run run
  | .pair left _ right, hfrom =>
    .pair (Node.agreement_self hdiscreet left hfrom.1) rfl (Node.agreement_self hdiscreet right hfrom.2)
  | .extended run _ right, hfrom =>
    .extended (Run.agreement_self hdiscreet run hfrom.1) rfl (Node.agreement_self hdiscreet right hfrom.2)
end

theorem Node.force_agrees (hdiscreet : registry.Discreet) {node : Node} (hfrom : node.IsFrom registry)
    (room : Option Nat) {s t : State} (h : s.Agrees t) :
    Agree (node.force settings room s) (node.force settings room t) := by
  have hstates : (Simulation.agreement True).states [] s t := h
  have hrooms : (Simulation.agreement True).Rooms room room := .inl ⟨rfl, fun _ => trivial⟩
  exact (Simulation.force_ends (Node.agreement_self hdiscreet node hfrom) hrooms hstates).agree

theorem Tree.evaluate_agrees (hdiscreet : registry.Discreet) {tree : Tree}
    (hfrom : tree.root.IsFrom registry) {s t : State} (h : s.Agrees t) :
    Agree (tree.evaluate settings s) (tree.evaluate settings t) := by
  have hforced : Agree (tree.root.force settings settings.machine.frames s)
      (tree.root.force settings settings.machine.frames t) :=
    Node.force_agrees hdiscreet hfrom settings.machine.frames h
  unfold Tree.evaluate
  obtain ⟨value, s, t, hs, ht, h⟩ | ⟨failure, s, t, hs, ht, h⟩ := hforced.inversion
  · simp only [hs, ht]
    exact .ok value h
  · simp only [hs, ht]
    cases failure <;> exact .error _ h

end Formula
