import Formula.Node

/-! # Evaluation

Forcing a node forces what its behaviour asks for, in its order, every time anew. Failures that do not
know their place get the offset of the innermost node around them. What was read, assigned and written
before a failure stays.
-/
namespace Formula

abbrev Outcome := Except Failure Value × State

/-- Gives a failure the offset of the node it passes. -/
def Outcome.located (offset : Nat) : Outcome → Outcome
  | (.error failure, state) => (.error (failure.locate offset), state)
  | outcome => outcome

def forceAll (room : Option Nat) (values : List Value) :
    List Operand → State → Except Failure (List Value) × State
  | [], state => (.ok values.reverse, state)
  | operand :: operands, state =>
    match operand.force room state with
    | (.ok value, state) => forceAll room (value :: values) operands state
    | (.error failure, state) => (.error failure, state)

/-- Runs an eager plan on values that are there. A failure of its numbers names the operation. -/
def applyEager (room : Option Nat) (name : String) (plan : Plan) (state : State) : Outcome :=
  match plan.run [] room state with
  | (.ok (.value value), state) => (.ok value, state)
  | (.ok (.stray kind), state) => (.error (.of (.notAValue name kind)), state)
  | (.error failure, state) => (.error (failure.within name), state)

def applyLazy (room : Option Nat) (role name : String) (plan : Plan) (operands : List Operand)
    (state : State) : Outcome :=
  match plan.run operands room state with
  | (.ok (.value value), state) => (.ok value, state)
  | (.ok (.stray _), state) => (.error (.of (.notDeferred role name)), state)
  | (.error failure, state) => (.error failure, state)

def Behaviour.apply (settings : Settings) (room : Option Nat) (role name : String)
    (behaviour : Behaviour) (operands : List Operand) (state : State) : Outcome :=
  match behaviour with
  | .lazy plan => applyLazy room role name (plan settings operands.length) operands state
  | .eager plan =>
    match forceAll room [] operands state with
    | (.ok values, state) => applyEager room name (plan settings values) state
    | (.error failure, state) => (.error failure, state)

def operatorRole : String := "Operator"

def functionRole : String := "Function"

/-- The left value of a run as an operand: forcing it again computes nothing. -/
def Operand.ofValue (id : Nat) (value : Value) : Operand :=
  ⟨fun _ state => (.ok value, state.countForce id), fun state => state.forcesOf id⟩

def applyStep (settings : Settings) (room : Option Nat) (id : Nat) (op : Operator) (value : Value)
    (right : Operand) (state : State) : Outcome :=
  op.behaviour.apply settings room operatorRole op.symbol [.ofValue id value, right] (state.resetForces id)

def applySteps (settings : Settings) (room : Option Nat) (id : Nat) (op : Operator) (value : Value) :
    List (Nat × Operand) → State → Outcome
  | [], state => (.ok value, state)
  | (offset, right) :: steps, state =>
    match Outcome.located offset (applyStep settings room id op value right state) with
    | (.ok value, state) => applySteps settings room id op value steps state
    | (.error failure, state) => (.error failure, state)

def Run.firstOffset : Run → Nat
  | .pair _ offset _ => offset
  | .extended run _ _ => run.firstOffset

mutual
/-- The value of a node, where the stack has so much room. -/
def Node.force (settings : Settings) (room : Option Nat) : Node → State → Outcome
  | .constant id _ value, state => (.ok value, state.countForce id)
  | .reference id name offset, state =>
    match state.countForce id with
    | ⟨environment, memory, forces, trail⟩ =>
      let (result, environment) := environment.read name
      Outcome.located offset (result, ⟨environment, memory, forces, trail⟩)
  | .operation id _ op offset operands, state =>
    match deeper room with
    | none => (.error .tooDeep, state)
    | some room =>
      Outcome.located offset
        (op.behaviour.apply settings room operatorRole op.symbol (operandsOf settings operands)
          (state.countForce id))
  | .chain id _ op run, state =>
    match deeper room with
    | none => (.error .tooDeep, state)
    | some room =>
      let (first, steps) := run.operands settings []
      match Outcome.located run.firstOffset (first.force room (state.countForce id)) with
      | (.ok value, state) => applySteps settings room (id + 1) op value steps state
      | (.error failure, state) => (.error failure, state)
  | .call id _ f offset arguments, state =>
    match deeper room with
    | none => (.error .tooDeep, state)
    | some room =>
      let state := state.countForce id
      let state :=
        if settings.traced then state.leave (.call f.name arguments.length) else state
      Outcome.located offset
        (f.behaviour.apply settings room functionRole f.name (operandsOf settings arguments) state)
  | .hole _ _, state => (.error (.fault .missingMember), state)
def operandsOf (settings : Settings) : List Node → List Operand
  | [] => []
  | node :: nodes =>
    ⟨fun room state => node.force settings room state, fun state => state.forcesOf node.id⟩ ::
      operandsOf settings nodes
def Run.operands (settings : Settings) :
    Run → List (Nat × Operand) → Operand × List (Nat × Operand)
  | .pair left offset right, later =>
    (⟨fun room state => left.force settings room state, fun state => state.forcesOf left.id⟩,
      (offset, ⟨fun room state => right.force settings room state, fun state => state.forcesOf right.id⟩) ::
        later)
  | .extended run offset right, later =>
    run.operands settings
      ((offset, ⟨fun room state => right.force settings room state, fun state => state.forcesOf right.id⟩) ::
        later)
end

/-- Evaluates a tree. Where the stack is full it fails, and no place of the text is at fault. -/
def Tree.evaluate (settings : Settings) (tree : Tree) (state : State) : Outcome :=
  match tree.root.force settings settings.machine.frames state with
  | (.error .tooDeep, state) => (.error (.of .nestedTooDeeply), state)
  | outcome => outcome

end Formula
