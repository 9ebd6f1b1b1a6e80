import Formula.Proofs.Evaluation.Choice
import Formula.Proofs.Expression.Composed
import Formula.Proofs.Session.Grouping
import Formula.Proofs.Session.Repetitions

/-! # Evaluations that mirror runs

An evaluation may do what several runs in a session do one after another, where each of them decides which is
the next: it leaves their lines, ends in their session, and its value is made of that of the last one. This
holds of operands that sources were read into, and is kept by the calls and operators around them.
-/
namespace Formula

namespace Session

def runNothing : Runs := fun session => .ok ([], session)

variable {limited : Prop} {settings : Settings} {context : Context} {session : Session}
  {environment : Environment} {source : String} {room : Option Nat} {finish : Value → Value}
  {found : Value} {runs others : Runs} {evaluation : State → Outcome}

structure Fits (limited : Prop) (settings : Settings) (room : Option Nat) : Prop where
  narrower : Narrower room settings.machine.frames
  bounded : room.isSome = true → limited

namespace Fits

variable {next : Option Nat}

theorem inside (h : Fits limited settings room) : Fits limited settings (inside room) := by
  refine ⟨(Narrower.inside_self room).trans h.narrower, ?_⟩
  rw [isSome_inside]
  exact h.bounded

theorem deeper (h : Fits limited settings room) (hroom : deeper room = some next) :
    Fits limited settings next := by
  refine ⟨(Narrower.of_deeper hroom).trans h.narrower, ?_⟩
  rw [isSome_of_deeper hroom]
  exact h.bounded

theorem cut (h : Fits limited settings room) (hroom : Formula.deeper room = none) : limited :=
  h.bounded (isSome_of_deeper_eq_none hroom)

end Fits

def RunsAlike (limited : Prop) (settings : Settings) (operand : Operand) (source : String) : Prop :=
  ∀ ⦃room : Option Nat⦄ ⦃session : Session⦄ ⦃state : State⦄, Fits limited settings room →
    session.Starts settings state.environment → session.workspace.memory = state.memory →
      ∃ alone : Outcome, session.run source [] = .ok (session.reported source alone) ∧
        Echoes limited state.trail (operand.force room state) alone ∧
        (session.holding alone.2.environment alone.2.memory).Starts settings alone.2.environment

/-- Wherever a run can start, the evaluation tells what the runs do there. Its value is made of that of the last
run. If nothing is run, it is made of the value found before, and the session is one that a run has left. -/
def Mirrors (limited : Prop) (settings : Settings) (finish : Value → Value) (found : Value) (runs : Runs)
    (evaluation : State → Outcome) : Prop :=
  ∀ ⦃session ended : Session⦄ ⦃state : State⦄ ⦃reports : List Report⦄,
    session.Starts settings state.environment → session.workspace.memory = state.memory →
      (reports = [] → session.holding state.environment state.memory = session) →
      runs session = .ok (reports, ended) →
        Tells limited session state.trail ((Report.resultAfter found reports).map finish)
          (reports.flatMap Report.lines) ended (evaluation state)

def Roots (context : Context) (source : String) (root : Node) : Prop :=
  ∃ size, Registry.standard.freeze.treeOf context source = .ok ⟨root, size⟩

theorem Roots.runsAlike {root : Node} (h : Roots settings.context source root) :
    RunsAlike limited settings (root.operand settings) source := by
  intro room session state hfits hstarts hmemory
  obtain ⟨size, htree⟩ := h
  obtain ⟨alone, henvironment, hmemories, htrail, hrun⟩ := hstarts.run htree
  have hstates : state.Echoes state.trail alone :=
    ⟨henvironment.symm, (hmemories.trans hmemory).symm, by rw [htrail, List.nil_append]⟩
  have hdirect := (Registry.confined_of_treeOf Registry.standard_confined htree).direct
  exact ⟨_, hrun, root.force_echoes hdirect rfl (.of_narrower hfits.narrower hfits.bounded) hstates,
    hstarts.holding ⟨root, size⟩ henvironment⟩

namespace Tells

variable {earlier : List Event} {result : Except Failure Value} {lines : List Effect} {ended : Session}

theorem map {outcome : Outcome} (h : Tells limited session earlier result lines ended outcome)
    (f : Value → Value) :
    Tells limited session earlier (result.map f) lines ended
      (outcome.andThen fun value => Operand.ending (f value)) := by
  cases h with
  | deep hlimited => exact .deep hlimited
  | @told found state hresult hended hlines =>
    cases found with
    | ok value =>
      cases result with
      | ok other =>
        obtain rfl := Except.ok.inj hresult
        exact .told rfl hended hlines
      | error failure => cases hresult
    | error failure =>
      cases result with
      | ok other => cases hresult
      | error other => exact .told hresult hended hlines

end Tells

namespace Mirrors

theorem ending {other : Value} (h : finish found = other) :
    Mirrors limited settings finish found runNothing (Operand.ending other) := by
  intro session ended state reports _ _ hheld hran
  obtain ⟨rfl, rfl⟩ := Prod.mk.inj (Except.ok.inj hran)
  subst h
  exact .told rfl (hheld rfl) (List.append_nil _).symm

theorem ite {condition : Prop} [Decidable condition] {other : State → Outcome}
    (h : condition → Mirrors limited settings finish found runs evaluation)
    (k : ¬condition → Mirrors limited settings finish found others other) :
    Mirrors limited settings finish found (if condition then runs else others)
      (if condition then evaluation else other) := by
  split
  next hholds => exact h hholds
  next hfails => exact k hfails

/-- An operand that runs like a source is followed by what mirrors the runs after the source. -/
theorem thenDoes {operand : Operand} {runs : Value → Runs} {next : Value → State → Outcome}
    (h : RunsAlike limited settings operand source) (hfits : Fits limited settings room)
    (hnext : ∀ found, Mirrors limited settings finish found (runs found) (next found)) (found : Value) :
    Mirrors limited settings finish found (runThen source runs) (operand.thenDoes room next) := by
  intro session ended state reports hstarts hmemory _ hran
  obtain ⟨⟨result, last⟩, hrun, hechoes, hafter⟩ := h hfits hstarts hmemory
  obtain ⟨report, after, hsame, hcases⟩ := runThen_inversion hran
  obtain ⟨rfl, rfl⟩ := Prod.mk.inj (Except.ok.inj (hrun.symm.trans hsame))
  have hlines : (Report.of source (result.mapError Failure.settled) last.events).lines =
      Report.linesOf last.trail := Report.lines_of source _ last
  have hresult := Report.result_of source (result.mapError Failure.settled) last.events
  rw [Operand.thenDoes]
  generalize operand.force room state = outcome at hechoes
  obtain ⟨failure, hfailure, rfl, rfl⟩ | ⟨first, later, hfirst, hlater, rfl⟩ := hcases
  · cases hechoes with
    | deep hlimited => exact .deep hlimited
    | ok => rw [hresult] at hfailure; cases hfailure
    | @error cut other _ _ hplace hstate =>
      refine .told ?_ ?_ ?_
      · exact congrArg Except.error (Failure.unplaced_settled hplace)
      · rw [hstate.environment, hstate.memory]
      · rw [hstate.trail, Report.linesOf_append, ← hlines]
        simp
  · obtain rfl : result = .ok first := ok_of_mapError (hfirst.symm.trans hresult)
    cases hechoes with
    | deep hlimited => exact .deep hlimited
    | @ok _ begun _ hstate =>
      have hstarts : (session.holding last.environment last.memory).Starts settings begun.environment :=
        hstate.environment ▸ hafter
      have hheld : later = [] → (session.holding last.environment last.memory).holding begun.environment
          begun.memory = session.holding last.environment last.memory := by
        intro _
        rw [hstate.environment, hstate.memory]
        rfl
      have htold := (hnext first hstarts hstate.memory.symm hheld hlater).of_holding
      obtain ⟨final, hfinal, hlast⟩ := Report.exists_last hfirst later
      rw [Report.resultAfter_of_last hfinal, hlast]
      refine htold.regroup ?_
      rw [hstate.trail, Report.linesOf_append, List.flatMap_cons, hlines, List.append_assoc]

/-- An operand that runs like a source may stand for it. -/
theorem force {operand : Operand} (h : RunsAlike limited settings operand source)
    (hfits : Fits limited settings room) (found : Value) :
    Mirrors limited settings id found (runThen source fun _ => runNothing) (operand.force room) := by
  have hends : operand.thenDoes room Operand.ending = operand.force room := by
    funext state
    exact Outcome.andThen_ok (operand.force room state)
  rw [← hends]
  exact thenDoes h hfits (fun found => ending rfl) found

/-- Counting a node and tracing a call make no difference. -/
theorem begun (h : Mirrors limited settings finish found runs evaluation) (begin : State → State)
    (henvironment : ∀ state, (begin state).environment = state.environment)
    (hmemory : ∀ state, (begin state).memory = state.memory)
    (hlines : ∀ state, Report.linesOf (begin state).trail = Report.linesOf state.trail) :
    Mirrors limited settings finish found runs fun state => evaluation (begin state) := by
  intro session ended state reports hstarts hmemories hheld hran
  rw [← henvironment state] at hstarts hheld
  rw [← hmemory state] at hmemories hheld
  exact (h hstarts hmemories hheld hran).regroup (by rw [hlines state])

theorem located (h : Mirrors limited settings finish found runs evaluation) (offset : Nat) :
    Mirrors limited settings finish found runs fun state => Outcome.located offset (evaluation state) :=
  fun _ _ _ _ hstarts hmemory hheld hran => (h hstarts hmemory hheld hran).located offset

/-- Where evaluations may be cut off, this one was. -/
theorem cut (h : limited) : Mirrors limited settings finish found runs fun state => (.error .tooDeep, state) :=
  fun _ _ _ _ _ _ _ _ => .deep h

/-- Without more room an evaluation is cut off; with it, what it does a level deeper decides. -/
theorem nested {forced : State → Outcome} (hfits : Fits limited settings room)
    (hcut : deeper room = none → ∀ state, forced state = (.error .tooDeep, state))
    (hdeeper : ∀ next, deeper room = some next → Fits limited settings next →
      Mirrors limited settings finish found runs forced) :
    Mirrors limited settings finish found runs forced := by
  cases hroom : deeper room with
  | none =>
    obtain rfl := funext (hcut hroom)
    exact cut (hfits.cut hroom)
  | some next => exact hdeeper next hroom (hfits.deeper hroom)

theorem call {f : Function} {arguments : List Node} {performed : Option Nat → State → Outcome}
    (id : Nat) (label : String) (offset : Nat) (hfits : Fits limited settings room)
    (hperforms : f.behaviour.Performs (arguments.map (Node.operand settings)) performed)
    (h : ∀ next, Fits limited settings next →
      Mirrors limited settings finish found runs (performed next)) :
    Mirrors limited settings finish found runs ((Node.call id label f offset arguments).force settings room) := by
  refine nested hfits (fun hroom state => by rw [Node.force, hroom]) fun next hroom hnext => ?_
  have hforced : (Node.call id label f offset arguments).force settings room = fun state =>
      Outcome.located offset (performed next (state.enter settings id f.name arguments.length)) := by
    funext state
    rw [Node.force_call hroom, operandsOf_eq_map, hperforms]
  rw [hforced]
  refine ((h next hnext).begun (State.enter settings id f.name arguments.length) ?_ ?_ ?_).located offset
  · exact State.environment_enter settings id f.name arguments.length
  · exact State.memory_enter settings id f.name arguments.length
  · intro state
    obtain ⟨entry, htrail, hentry⟩ := state.exists_trail_enter settings id f.name arguments.length
    rw [htrail, Report.linesOf_append, hentry, List.append_nil]

theorem operation {op : Operator} {operands : List Node} {performed : Option Nat → State → Outcome}
    (id : Nat) (label : String) (offset : Nat) (hfits : Fits limited settings room)
    (hperforms : op.behaviour.Performs (operands.map (Node.operand settings)) performed)
    (h : ∀ next, Fits limited settings next →
      Mirrors limited settings finish found runs (performed next)) :
    Mirrors limited settings finish found runs
      ((Node.operation id label op offset operands).force settings room) := by
  refine nested hfits (fun hroom state => by rw [Node.force, hroom]) fun next hroom hnext => ?_
  have hforced : (Node.operation id label op offset operands).force settings room =
      fun state => Outcome.located offset (performed next (state.countForce id)) := by
    funext state
    rw [Node.force, hroom]
    dsimp only
    rw [operandsOf_eq_map, hperforms]
  rw [hforced]
  exact ((h next hnext).begun (State.countForce · id) (fun _ => rfl) (fun _ => rfl) fun _ => rfl).located offset

/-- The value may be turned into another one in the end. -/
theorem map {operand : Operand} (h : Mirrors limited settings finish found runs (operand.force room))
    (f : Value → Value) :
    Mirrors limited settings (f ∘ finish) found runs
      (operand.thenDoes room fun value => Operand.ending (f value)) := by
  intro session ended state reports hstarts hmemory hheld hran
  have hmade : ((Report.resultAfter found reports).map finish).map f =
      (Report.resultAfter found reports).map (f ∘ finish) := by
    cases Report.resultAfter found reports <;> rfl
  rw [← hmade]
  exact (h hstarts hmemory hheld hran).map f

end Mirrors

theorem Roots.mirrors {root : Node} (h : Roots settings.context source root)
    (hfits : Fits limited settings room) (found : Value) :
    Mirrors limited settings id found (runThen source fun _ => runNothing) (root.force settings room) :=
  .force h.runsAlike hfits found

theorem mirrors_constant {other : Value} (h : finish found = other) (id : Nat) (label : String) :
    Mirrors limited settings finish found runNothing ((Node.constant id label other).force settings room) := by
  have hforced : (Node.constant id label other).force settings room =
      fun state => Operand.ending other (state.countForce id) := by
    funext state
    rw [Node.force]
    rfl
  rw [hforced]
  exact (Mirrors.ending h).begun (State.countForce · id) (fun _ => rfl) (fun _ => rfl) fun _ => rfl

theorem Roots.spells {root : Node} (h : Roots context source root) :
    Registry.standard.freeze.Spells context (enclosedText source) root := by
  obtain ⟨size, htree⟩ := h
  exact .enclosed htree

/-- The text has a tree, and every source with this tree, but for places and numbers, ends as the reports do:
with what is made of the value of the last one, or with its failure up to the place, in the same session, and
with the lines of all of them in order. Only where the stack is bounded can the evaluation be cut off
instead. -/
def RunsAs (session : Session) (context : Context) (text : String) (finish : Value → Value)
    (reports : List Report) (ended : Session) : Prop :=
  ∃ tree, Registry.standard.freeze.treeOf context text = .ok tree ∧
    ∀ source other, Registry.standard.freeze.treeOf context source = .ok other →
      other.root.unplaced = tree.root.unplaced →
        ∃ whole after, session.run source [] = .ok (whole, after) ∧
          (((∃ last ∈ reports.getLast?, whole.result.mapError Failure.unplaced =
              (last.result.map finish).mapError Failure.unplaced) ∧
            after = ended ∧ whole.lines = reports.flatMap Report.lines) ∨
          (session.machine.frames.isSome = true ∧ whole.result = .error (.of .nestedTooDeeply)))

/-- A source with the tree of a node, but for places and numbers, runs as the node is forced. -/
theorem Starts.run_like (h : session.Starts settings environment) {tree : Tree} {node : Node}
    (htree : Registry.standard.freeze.treeOf settings.context source = .ok tree)
    (hsame : tree.root.unplaced = node.unplaced) (limited : Prop) :
    ∃ (state : State) (outcome : Outcome), state.environment = environment ∧
      state.memory = session.workspace.memory ∧ state.trail = [] ∧
      session.run source [] = .ok (session.reported source outcome) ∧
        Echoes limited [] outcome (node.force settings settings.machine.frames state) := by
  obtain ⟨state, henvironment, hmemory, htrail, hrun⟩ := h.run htree
  have hdirect := (Registry.confined_of_treeOf Registry.standard_confined htree).direct
  exact ⟨state, _, henvironment, hmemory, htrail, hrun,
    tree.root.force_echoes hdirect hsame (.same _) (.refl state)⟩

/-- A text that spells a node which mirrors runs ends as their reports do. -/
theorem Starts.runsAs (h : session.Starts settings environment) {text : String} {node : Node}
    (hspells : Registry.standard.freeze.Spells settings.context text node)
    (hmirrors : ∀ limited, Fits limited settings settings.machine.frames →
      ∀ found, Mirrors limited settings finish found runs (node.force settings settings.machine.frames))
    {reports : List Report} {ended : Session} (hran : runs session = .ok (reports, ended))
    (hreports : reports ≠ []) : session.RunsAs settings.context text finish reports ended := by
  obtain ⟨tree, htree, hroot⟩ := hspells.exists_tree
  refine ⟨tree, htree, fun source other hother hsame => ?_⟩
  obtain ⟨-, -, hmachine⟩ := settings_inversion h.given
  have hfits : Fits (session.machine.frames.isSome = true) settings settings.machine.frames :=
    ⟨.refl _, by rw [hmachine]; exact id⟩
  obtain ⟨state, outcome, rfl, hmemory, htrail, hrun, hechoes⟩ :=
    h.run_like hother (hsame.trans hroot) (session.machine.frames.isSome = true)
  have htells := (hmirrors _ hfits .zero h hmemory.symm (absurd · hreports) hran).of_echoes hechoes
  refine ⟨_, _, hrun, ?_⟩
  cases htells with
  | deep hbounded => exact .inr ⟨hbounded, rfl⟩
  | told hresult hended hlines =>
    have hlast := List.getLast?_eq_getLast_of_ne_nil hreports
    refine .inl ⟨⟨reports.getLast hreports, hlast, ?_⟩, hended, ?_⟩
    · rw [Report.result_of, ← Report.resultAfter_of_last hlast .zero]
      exact hresult
    · rw [Report.lines_of, hlines, htrail]
      rfl

theorem Starts.exists_runThen (h : session.Starts settings environment) {root : Node}
    (hroot : Roots settings.context source root) {after : Value → Runs}
    (hafter : ∀ found (later : Session), later.Starts settings later.workspace.environment →
      ∃ reports ended, after found later = .ok (reports, ended)) :
    ∃ reports ended, runThen source after session = .ok (reports, ended) ∧ reports ≠ [] := by
  obtain ⟨size, htree⟩ := hroot
  obtain ⟨report, later, hrun, hstarts⟩ := h.exists_run htree
  cases hresult : report.result with
  | error failure => exact ⟨[report], later, runThen_error hrun hresult, List.cons_ne_nil _ _⟩
  | ok found =>
    obtain ⟨reports, ended, hran⟩ := hafter found later hstarts
    exact ⟨report :: reports, ended, runThen_ok hrun hresult hran, List.cons_ne_nil _ _⟩

end Session

end Formula
