import Formula.Proofs.Evaluation.EchoTree
import Formula.Proofs.Evaluation.Run

/-! # Joined operands are evaluated one after another

Operands joined by an operator whose runs are kept flat are one run, also where the first operand is a run
of this operator itself. So forcing them forces the first as if it stood alone, and then takes one step for
each of the others.
-/
namespace Formula

variable {settings : Settings} {room next : Option Nat} {label : String} {op : Operator}

theorem Outcome.andThen_andThen (outcome : Outcome) (first second : Value → State → Outcome) :
    (outcome.andThen first).andThen second =
      outcome.andThen fun value state => (first value state).andThen second := by
  obtain ⟨result, state⟩ := outcome
  cases result <;> rfl

theorem applySteps_cons (id : Nat) (value : Value) (step : Nat × Operand)
    (steps : List (Nat × Operand)) (state : State) :
    applySteps settings room id op value (step :: steps) state =
      (Outcome.located step.1 (applyStep settings room id op value step.2 state)).andThen
        fun value => applySteps settings room id op value steps := by
  unfold applySteps
  generalize Outcome.located step.1 (applyStep settings room id op value step.2 state) = outcome
  obtain ⟨result, after⟩ := outcome
  cases result <;> rfl

/-- Stated of functions, to be used before there is a state. -/
theorem applySteps_append (id : Nat) (value : Value) (steps more : List (Nat × Operand)) :
    applySteps settings room id op value (steps ++ more) = fun state =>
      (applySteps settings room id op value steps state).andThen
        fun value => applySteps settings room id op value more := by
  induction steps generalizing value with
  | nil => rfl
  | cons step steps ih =>
    funext state
    simp only [List.cons_append, applySteps_cons, Outcome.andThen_andThen, ih]

def stepsOf (settings : Settings) (nodes : List Node) : List (Nat × Operand) :=
  nodes.map fun node => (0, node.operand settings)

namespace Run

def followed (run : Run) (nodes : List Node) : Run := nodes.foldl (fun run node => .extended run 0 node) run

theorem firstOffset_followed (run : Run) (nodes : List Node) :
    (run.followed nodes).firstOffset = run.firstOffset := by
  induction nodes generalizing run with
  | nil => rfl
  | cons node nodes ih => exact ih _

theorem operands_followed (settings : Settings) (run : Run) (nodes : List Node) :
    (run.followed nodes).operands settings [] =
      ((run.operands settings []).1, (run.operands settings []).2 ++ stepsOf settings nodes) := by
  induction nodes generalizing run with
  | nil => simp [followed, stepsOf]
  | cons node nodes ih =>
    have hnode : (Run.extended run 0 node).operands settings [] =
        ((run.operands settings []).1, (run.operands settings []).2 ++ [(0, node.operand settings)]) :=
      run.operands_append settings _
    have hrest := ih (.extended run 0 node)
    rw [hnode] at hrest
    rw [followed, List.foldl_cons, ← followed, hrest]
    simp [stepsOf]

end Run

namespace Node

/-- A run forces its first operand and then takes its steps. -/
theorem force_chain_of_deeper (hdeeper : deeper room = some next) (id : Nat) (run : Run) (state : State) :
    (chain id label op run).force settings room state =
      (Outcome.located run.firstOffset
        ((run.operands settings []).1.force next (state.countForce id))).andThen
          fun value => applySteps settings next (id + 1) op value (run.operands settings []).2 := by
  rw [Node.force, hdeeper]
  dsimp only
  generalize Outcome.located run.firstOffset _ = outcome
  obtain ⟨result, after⟩ := outcome
  cases result <;> rfl

/-- Further operands are further steps. -/
theorem force_followed (hdeeper : deeper room = some next) (id : Nat) (run : Run) (nodes : List Node)
    (state : State) :
    (chain id label op (run.followed nodes)).force settings room state =
      ((chain id label op run).force settings room state).andThen
        fun value => applySteps settings next (id + 1) op value (stepsOf settings nodes) := by
  simp only [force_chain_of_deeper hdeeper, run.operands_followed, run.firstOffset_followed,
    Outcome.andThen_andThen, applySteps_append]

/-- Operands joined to a run of the operator make this run longer. -/
theorem joined_chain (hchainable : op.chainable = true) (id : Nat) (run : Run) (rest : List Node) :
    joined label op (chain id label op run) rest = chain id label op (run.followed rest) := by
  induction rest generalizing run with
  | nil => rfl
  | cons next rest ih =>
    have hbinary : (Assembly.binary label op 0 (chain id label op run) next 0).1 =
        chain id label op (.extended run 0 next) := by
      simp [Assembly.binary, hchainable]
    rw [joined, List.foldl_cons, hbinary]
    exact ih _

variable {registry : Registry} {first : Node}

/-- Joined operands are a run: the first operand's own, made longer, or a new one. -/
theorem joined_cases (hop : registry.operator? label = some op) (hchainable : op.chainable = true)
    (hfirst : first.IsFrom registry) (second : Node) (rest : List Node) :
    (∃ id run, first = chain id label op run ∧
      joined label op first (second :: rest) = chain id label op (run.followed (second :: rest))) ∨
      joined label op first (second :: rest) =
        chain 0 label op ((Run.pair first 0 second).followed rest) := by
  have hnew (h : (Assembly.binary label op 0 first second 0).1 =
      chain 0 label op (.pair first 0 second)) : joined label op first (second :: rest) =
        chain 0 label op ((Run.pair first 0 second).followed rest) := by
    rw [joined, List.foldl_cons, h]
    exact joined_chain hchainable 0 _ rest
  cases first with
  | chain id chained found run =>
    by_cases hlabel : chained = label
    · obtain rfl := hlabel
      obtain rfl : found = op := Option.some.inj (hfirst.1.symm.trans hop)
      exact .inl ⟨id, run, rfl, joined_chain hchainable id run _⟩
    · exact .inr (hnew (by simp [Assembly.binary, hchainable, hlabel]))
  | constant | reference | operation | call | hole =>
    exact .inr (hnew (by simp [Assembly.binary, hchainable]))

end Node

variable {registry : Registry} {first : Node}

/-- Forcing joined operands echoes forcing the first as it stands alone, and then takes a step for each of
the others. Only where the stack is bounded can it be cut off. -/
theorem Node.force_joined (hop : registry.operator? label = some op) (hchainable : op.chainable = true)
    (hfirst : first.IsFrom registry) (hdirect : first.Direct) {limited : Prop}
    (hlimited : room.isSome = true → limited) (rest : List Node) {older : List Event} {s t : State}
    (h : s.Echoes older t) :
    ∃ next id, ∃ outcome : Outcome, Narrower next room ∧ (next.isSome = true → limited) ∧
      Echoes limited older outcome (first.force settings room t) ∧
      (joined label op first rest).force settings room s =
        outcome.andThen fun value => applySteps settings next id op value (stepsOf settings rest) := by
  have halone : Echoes limited older (first.force settings room s) (first.force settings room t) :=
    first.force_echoes hdirect rfl (.same room) h
  cases rest with
  | nil =>
    refine ⟨room, 0, _, .refl room, hlimited, halone, ?_⟩
    change first.force settings room s = _
    generalize first.force settings room s = outcome
    obtain ⟨result, after⟩ := outcome
    cases result <;> rfl
  | cons second rest =>
    have hcases := joined_cases hop hchainable hfirst second rest
    cases hdeeper : deeper room with
    | none =>
      have hcut : limited := hlimited (isSome_of_deeper_eq_none hdeeper)
      refine ⟨room, 0, (.error .tooDeep, s), .refl room, hlimited, .deep hcut, ?_⟩
      obtain ⟨id, run, -, hjoined⟩ | hjoined := hcases
      all_goals
        rw [hjoined, Node.force, hdeeper]
        rfl
    | some next =>
      have hnarrower : Narrower next room := .of_deeper hdeeper
      have hnext : next.isSome = true → limited := isSome_of_deeper hdeeper ▸ hlimited
      obtain ⟨id, run, rfl, hjoined⟩ | hjoined := hcases
      · refine ⟨next, id + 1, _, hnarrower, hnext, halone, ?_⟩
        rw [hjoined, force_followed hdeeper]
      · have hdeep : Echoes limited older (first.force settings next (s.countForce 0))
            (first.force settings room t) :=
          first.force_echoes hdirect rfl (.of_narrower hnarrower hnext) (h.countForce_left 0)
        refine ⟨next, 1, _, hnarrower, hnext, hdeep.located_left 0, ?_⟩
        rw [hjoined, force_chain_of_deeper hdeeper, Run.operands_followed, Run.firstOffset_followed]
        rfl

end Formula
