import Formula.Proofs.Evaluation.Simulation

/-! # Simulations of trees

Two trees are evaluated in step if they differ at most in what a simulation does not see, such as the
numbers and places of their nodes.
-/
namespace Formula

def Node.operand (settings : Settings) (node : Node) : Operand :=
  ⟨fun room state => node.force settings room state, fun state => state.forcesOf node.id⟩

theorem operandsOf_eq_map (settings : Settings) (nodes : List Node) :
    operandsOf settings nodes = nodes.map (Node.operand settings) := by
  induction nodes with
  | nil => rfl
  | cons node nodes ih => rw [operandsOf, ih, List.map_cons, Node.operand]

theorem length_operandsOf (settings : Settings) (nodes : List Node) :
    (operandsOf settings nodes).length = nodes.length := by
  rw [operandsOf_eq_map, List.length_map]

namespace Simulation

mutual
inductive Nodes (sim : Simulation) (settings : Settings) : Node → Node → Prop
  | constant {id other : Nat} {label text : String} {value : Value} (hid : sim.ids id other)
      (hvalue : sim.fine value) : Nodes sim settings (.constant id label value) (.constant other text value)
  | reference {id other : Nat} {name : String} {offset place : Nat} (hid : sim.ids id other)
      (hoffset : sim.offsets offset place) (hread : ∀ held, sim.Reads sim.raises held name) :
      Nodes sim settings (.reference id name offset) (.reference other name place)
  | operation {id other : Nat} {label text : String} {op : Operator} {offset place : Nat}
      {operands others : List Node} (hid : sim.ids id other) (hoffset : sim.offsets offset place)
      (hop : sim.Behaves settings operands.length op.behaviour)
      (hoperands : AllNodes sim settings operands others) :
      Nodes sim settings (.operation id label op offset operands) (.operation other text op place others)
  | chain {id other : Nat} {label text : String} {op : Operator} {run last : Run} (hid : sim.ids id other)
      (hop : sim.Behaves settings 2 op.behaviour) (hrun : Runs sim settings run last) :
      Nodes sim settings (.chain id label op run) (.chain other text op last)
  | call {id other : Nat} {label text : String} {f : Function} {offset place : Nat}
      {arguments others : List Node} (hid : sim.ids id other) (hoffset : sim.offsets offset place)
      (hf : sim.Behaves settings arguments.length f.behaviour)
      (harguments : AllNodes sim settings arguments others) :
      Nodes sim settings (.call id label f offset arguments) (.call other text f place others)
  | hole {id other : Nat} {label text : String} (hid : sim.ids id other)
      (hfault : sim.places (.fault .missingMember) (.fault .missingMember)) :
      Nodes sim settings (.hole id label) (.hole other text)
inductive AllNodes (sim : Simulation) (settings : Settings) : List Node → List Node → Prop
  | nil : AllNodes sim settings [] []
  | cons {node other : Node} {nodes others : List Node} (hnode : Nodes sim settings node other)
      (hnodes : AllNodes sim settings nodes others) :
      AllNodes sim settings (node :: nodes) (other :: others)
inductive Runs (sim : Simulation) (settings : Settings) : Run → Run → Prop
  | pair {left right other last : Node} {offset place : Nat} (hleft : Nodes sim settings left other)
      (hoffset : sim.offsets offset place) (hright : Nodes sim settings right last) :
      Runs sim settings (.pair left offset right) (.pair other place last)
  | extended {run other : Run} {right last : Node} {offset place : Nat}
      (hrun : Runs sim settings run other) (hoffset : sim.offsets offset place)
      (hright : Nodes sim settings right last) :
      Runs sim settings (.extended run offset right) (.extended other place last)
end

variable {sim : Simulation} {settings : Settings}

theorem Nodes.ids {node other : Node} (h : sim.Nodes settings node other) : sim.ids node.id other.id := by
  cases h <;> assumption

theorem AllNodes.length_eq : {nodes others : List Node} → sim.AllNodes settings nodes others →
    nodes.length = others.length
  | _, _, .nil => rfl
  | _, _, .cons _ h => congrArg (· + 1) h.length_eq

theorem Runs.firstOffset : {run other : Run} → sim.Runs settings run other →
    sim.offsets run.firstOffset other.firstOffset
  | _, _, .pair _ hoffset _ => hoffset
  | _, _, .extended h _ _ => h.firstOffset

/-- Nodes end alike where there is room for them on both sides and they do so one frame further down. -/
theorem ends_deeper {room further : Option Nat} (hrooms : sim.Rooms room further) {held : List String}
    {s t : State} (h : sim.states held s t) {left right : Option Nat → Outcome}
    (hnext : ∀ ⦃next last⦄, sim.Rooms next last →
      sim.Ends sim.places sim.fine held (left next) (right last)) :
    sim.Ends sim.places sim.fine held
      (match deeper room with
        | none => (.error .tooDeep, s)
        | some next => left next)
      (match deeper further with
        | none => (.error .tooDeep, t)
        | some last => right last) := by
  cases hdeeper : deeper room with
  | none =>
    obtain hcuts | ⟨hlimited, hfull⟩ := hrooms.full hdeeper
    · exact .cut hcuts
    · rw [hfull]
      exact .error (sim.full hlimited) h
  | some next =>
    obtain ⟨last, hlast, hrooms⟩ := hrooms.exists_deeper hdeeper
    rw [hlast]
    exact hnext hrooms

mutual
/-- Nodes whose parts keep the simulation end alike. -/
theorem force_ends : {node other : Node} → sim.Nodes settings node other → ∀ ⦃room further⦄,
    sim.Rooms room further → ∀ ⦃held s t⦄, sim.states held s t →
      sim.Ends sim.places sim.fine held (node.force settings room s) (other.force settings further t)
  | _, _, .constant hid hvalue => fun _ _ _ _ _ _ h => by
    unfold Node.force
    exact .ok hvalue (sim.count h hid)
  | _, _, .reference hid hoffset hread => fun _ _ _ held _ _ h =>
    (hread held (sim.count h hid)).located hoffset
  | _, _, .operation hid hoffset hop hoperands => fun _ _ hrooms _ _ _ h => by
    unfold Node.force
    refine ends_deeper hrooms h fun next last hrooms => ?_
    rw [← length_operandsOf settings] at hop
    exact (apply_ends operatorRole _ hop (operandsOf_ends hoperands) hrooms
      (sim.count h hid)).located hoffset
  | _, _, .chain hid hop hrun => fun _ _ hrooms _ s t h => by
    unfold Node.force
    refine ends_deeper hrooms h fun next last hrooms => ?_
    obtain ⟨hfirst, hsteps⟩ := run_operands_ends hrun .nil
    have hforced := ((hfirst.force hrooms (sim.count h hid)).imp_failure sim.raised).located hrun.firstOffset
    dsimp only
    generalize Outcome.located _ _ = one at hforced
    generalize Outcome.located _ _ = two at hforced
    cases hforced with
    | cut h => exact .cut h
    | ok hvalue h => exact applySteps_ends (sim.succ hid) hop hvalue hsteps hrooms h
    | error hfailure h => exact .error hfailure h
  | _, _, .call hid hoffset hf harguments => fun _ _ hrooms _ _ _ h => by
    unfold Node.force
    refine ends_deeper hrooms h fun next last hrooms => ?_
    rw [← length_operandsOf settings] at hf
    dsimp only
    rw [harguments.length_eq]
    refine (apply_ends functionRole _ hf (operandsOf_ends harguments) hrooms ?_).located hoffset
    split
    · exact sim.leave (sim.count h hid) _
    · exact sim.count h hid
  | _, _, .hole _ hfault => fun _ _ _ _ _ _ h => by
    unfold Node.force
    exact .error hfault h
theorem operandsOf_ends : {nodes others : List Node} → sim.AllNodes settings nodes others →
    List.Forall₂ sim.Operands (operandsOf settings nodes) (operandsOf settings others)
  | _, _, .nil => .nil
  | _, _, .cons hnode hnodes =>
    .cons ⟨force_ends hnode, fun hcounts _ _ _ h => sim.forces hcounts h hnode.ids⟩ (operandsOf_ends hnodes)
theorem run_operands_ends : {run other : Run} → sim.Runs settings run other →
    ∀ {later others : List (Nat × Operand)},
      List.Forall₂ (fun step other => sim.offsets step.1 other.1 ∧ sim.Operands step.2 other.2) later others →
        sim.Operands (run.operands settings later).1 (other.operands settings others).1 ∧
          List.Forall₂ (fun step other => sim.offsets step.1 other.1 ∧ sim.Operands step.2 other.2)
            (run.operands settings later).2 (other.operands settings others).2
  | _, _, .pair hleft hoffset hright => fun hlater =>
    ⟨⟨force_ends hleft, fun hcounts _ _ _ h => sim.forces hcounts h hleft.ids⟩,
      .cons ⟨hoffset, force_ends hright, fun hcounts _ _ _ h => sim.forces hcounts h hright.ids⟩ hlater⟩
  | _, _, .extended hrun hoffset hright => fun hlater =>
    run_operands_ends hrun
      (.cons ⟨hoffset, force_ends hright, fun hcounts _ _ _ h => sim.forces hcounts h hright.ids⟩ hlater)
end

end Simulation

end Formula
