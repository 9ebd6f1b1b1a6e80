import Formula.Proofs.Evaluation.Joined
import Formula.Proofs.Expression.Caching
import Formula.Proofs.Expression.Script
import Formula.Proofs.Registry.Reachable
import Formula.Proofs.Session.Reported

/-! # A script runs as its sources do

Sources may be run one after another in a session, up to the first that fails, or all at once as a script,
in parentheses with semicolons between them. The script ends with the value or the failure of the last
source that was run and in the same environment, and leaves the same lines, with one more for the value of
each source before that.
-/
namespace Formula

namespace Library

def sequenceOperator : Operator := lazyOperator ";" 1 true true sequence

theorem operator?_semicolon : Registry.standard.freeze.operator? ";" = some sequenceOperator := rfl

/-- The step logs the text of the value before it, if there is room to make one, and forces the next operand. -/
theorem applyStep_sequence (settings : Settings) (room : Option Nat) (id : Nat) (value : Value)
    (right : Operand) (state : State) :
    applyStep settings room id sequenceOperator value right state =
      if fits value.textFrames (inside room) then
        right.force (inside room) (((state.resetForces id).countForce id).leave (.log value.string))
      else (.error .tooDeep, (state.resetForces id).countForce id) := by
  have hrun : applyStep settings room id sequenceOperator value right state =
      applyLazy room operatorRole ";" (.force 0 fun first => .text first fun line => .log line (.force 1 .done))
        [.ofValue id value, right] (state.resetForces id) := rfl
  rw [hrun]
  simp only [applyLazy, Plan.run, Operand.ofValue, List.getElem?_cons_zero, List.getElem?_cons_succ]
  cases fits value.textFrames (inside room) with
  | true =>
    simp only [if_true]
    generalize right.force _ _ = outcome
    obtain ⟨result, after⟩ := outcome
    cases result <;> rfl
  | false => rfl

end Library

namespace Report

def lines (report : Report) : List Effect := report.effects.filter fun effect => effect.channel ≠ .failure

def failure? (report : Report) : Option Failure :=
  match report.result with
  | .ok _ => none
  | .error failure => some failure

theorem result_ne_of_failure? {report : Report} {failure : Failure}
    (h : (report.failure? == some failure) = false) : report.result ≠ .error failure := by
  intro hresult
  rw [failure?, hresult, beq_self_eq_true] at h
  cases h

def valueLines (report : Report) : List Effect :=
  match report.result with
  | .ok value => [⟨.log, value.string⟩]
  | .error _ => []

/-- The lines of the reports in order, with one more for the value of each report but the last. -/
def joinedLines : List Report → List Effect
  | [] => []
  | [last] => last.lines
  | report :: next :: reports => report.lines ++ report.valueLines ++ joinedLines (next :: reports)

def linesAfter (value : Value) : List Report → List Effect
  | [] => []
  | report :: reports => ⟨.log, value.string⟩ :: joinedLines (report :: reports)

def resultAfter (value : Value) (reports : List Report) : Except Failure Value :=
  (reports.getLast?.map Report.result).getD (.ok value)

theorem resultAfter_of_last {last : Report} {reports : List Report} (h : last ∈ reports.getLast?)
    (value : Value) : resultAfter value reports = last.result := by
  rw [resultAfter, Option.mem_def.mp h]
  rfl

theorem linesAfter_of_last {last : Report} {reports : List Report} (h : last ∈ reports.getLast?)
    (value : Value) : linesAfter value reports = ⟨.log, value.string⟩ :: joinedLines reports := by
  cases reports with
  | nil => cases h
  | cons => rfl

def linesOf (trail : List Event) : List Effect := trail.reverse.filterMap effect?

@[simp] theorem linesOf_append (trail older : List Event) :
    linesOf (trail ++ older) = linesOf older ++ linesOf trail := by
  simp [linesOf]

@[simp] theorem linesOf_log (line : String) (older : List Event) :
    linesOf (.log line :: older) = linesOf older ++ [⟨.log, line⟩] := by
  simp [linesOf, effect?]

theorem result_of (source : String) (result : Except Failure Value) (events : List Event) :
    (of source result events).result = result := by
  cases result <;> rfl

theorem lines_of (source : String) (result : Except Failure Value) (state : State) :
    (of source result state.events).lines = linesOf state.trail := by
  have hkept : (state.events.filterMap effect?).filter (fun effect => effect.channel ≠ .failure) =
      state.events.filterMap effect? := by
    refine List.filter_eq_self.mpr fun effect heffect => ?_
    obtain ⟨event, -, hevent⟩ := List.mem_filterMap.mp heffect
    cases event with
    | log | print =>
      obtain rfl := Option.some.inj hevent
      rfl
    | call => cases hevent
  cases result with
  | ok value => exact hkept
  | error failure =>
    rw [of, lines, List.filter_append, hkept]
    simp [linesOf, State.events]

theorem joinedLines_cons {report : Report} {value : Value} (h : report.result = .ok value)
    (reports : List Report) :
    joinedLines (report :: reports) = report.lines ++ linesAfter value reports := by
  cases reports with
  | nil => simp [joinedLines, linesAfter]
  | cons next reports => simp [joinedLines, linesAfter, valueLines, h]

theorem exists_last {report : Report} {value : Value} (h : report.result = .ok value)
    (reports : List Report) :
    ∃ last ∈ (report :: reports).getLast?, last.result = resultAfter value reports := by
  cases reports with
  | nil => exact ⟨report, rfl, h⟩
  | cons next reports =>
    refine ⟨(next :: reports).getLast (List.cons_ne_nil _ _), ?_, ?_⟩
    · simp [List.getLast?_eq_getLast_of_ne_nil]
    · simp [resultAfter, List.getLast?_eq_getLast_of_ne_nil]

end Report

namespace Session

/-- Runs the sources one after another, up to the first that fails. -/
def runEach (session : Session) : List String → Except Failure (List Report × Session)
  | [] => .ok ([], session)
  | source :: sources => do
    let (report, session) ← session.run source []
    match report.result with
    | .error _ => return ([report], session)
    | .ok _ =>
      let (reports, session) ← session.runEach sources
      return (report :: reports, session)

def opened (session : Session) (environment : Environment) : Workspace :=
  { session.workspace with environment }

def holding (session : Session) (environment : Environment) (memory : Table Value) : Session :=
  { session with workspace := ⟨Registry.standard.freeze, environment, memory⟩ }

def reported (session : Session) (source : String) (outcome : Outcome) : Report × Session :=
  (.of source (outcome.1.mapError Failure.settled) outcome.2.events,
    session.holding outcome.2.environment outcome.2.memory)

structure Starts (session : Session) (settings : Settings) (environment : Environment) : Prop where
  given : session.settings = .ok settings
  presets : session.presets = []
  registry : session.workspace.registry.freeze = Registry.standard.freeze
  seeded : session.workspace.environment.seed settings.context
    session.workspace.registry.constants.entries = .ok environment

variable {session : Session} {settings : Settings} {environment : Environment} {source : String}
  {tree : Tree}

theorem exists_starts (hsettings : session.settings = .ok settings)
    (hpresets : session.presets = [])
    (hregistry : session.workspace.registry.freeze = Registry.standard.freeze) :
    ∃ environment, session.Starts settings environment := by
  obtain ⟨-, hcontext, -⟩ := settings_inversion hsettings
  have hfit := session.constantsFit_of_standard (Registry.constants_eq_of_freeze hregistry)
  obtain ⟨environment, hseeded⟩ := (Environment.exists_seed_iff _ _ _).mpr hfit
  rw [← hcontext] at hseeded
  exact ⟨environment, hsettings, hpresets, hregistry, hseeded⟩

namespace Starts

variable (h : session.Starts settings environment)
  (htree : Registry.standard.freeze.treeOf settings.context source = .ok tree)

include h in
/-- After an evaluation the next run starts where it ended. -/
theorem holding (tree : Tree) {state : State} (hstate : state.environment = environment) :
    (session.holding (tree.root.force settings settings.machine.frames state).2.environment
      (tree.root.force settings settings.machine.frames state).2.memory).Starts settings
        (tree.root.force settings settings.machine.frames state).2.environment where
  given := h.given
  presets := h.presets
  registry := rfl
  seeded := by
    obtain ⟨-, hconstants⟩ := Environment.contains_seed h.seeded
    rw [Registry.constants_eq_of_freeze h.registry] at hconstants
    refine Environment.seed_of_contains fun constant hconstant => ?_
    refine tree.root.force_retains settings settings.machine.frames state ?_
    rw [hstate]
    exact hconstants constant hconstant

include h in
/-- A run seeds the environment, evaluates a new expression and reports that. -/
theorem run_eq (source : String) :
    session.run source [] = .ok
      (let evaluated := Expression.evaluate { source, settings } (session.opened environment)
      (.of source evaluated.result evaluated.events, { session with workspace := evaluated.workspace })) := by
  have hmade : Expression.make source settings session.workspace =
      .ok ({ source, settings }, session.opened environment) := by
    rw [Expression.make, h.seeded]
    rfl
  unfold Session.run
  simp only [h.given, hmade, h.presets, bind, Except.bind, List.append_nil, Environment.setAll]
  rfl

include h htree in
theorem run : ∃ state : State, state.environment = environment ∧
    state.memory = session.workspace.memory ∧ state.trail = [] ∧
      session.run source [] =
        .ok (session.reported source (tree.root.force settings settings.machine.frames state)) := by
  obtain ⟨⟨forces, houtcome⟩, -⟩ := @Expression.evaluate_outcome { source, settings }
    (session.opened environment) (Expression.faithful_new _ source settings)
  have hregistry := Expression.registry_after_evaluate { source, settings } (session.opened environment)
  have hopened : (session.opened environment).registry.freeze = Registry.standard.freeze := h.registry
  refine ⟨⟨environment, session.workspace.memory, forces, []⟩, rfl, rfl, rfl, ?_⟩
  rw [h.run_eq]
  generalize Expression.evaluate { source, settings } (session.opened environment) = evaluated
    at houtcome hregistry ⊢
  obtain ⟨result, expression, ⟨registry, after, memory⟩, events⟩ := evaluated
  obtain rfl : registry = Registry.standard.freeze := hregistry.trans hopened
  rw [hopened, Registry.outcomeOf, htree] at houtcome
  have hforced := houtcome.trans
    (Tree.evaluate_eq settings tree ⟨environment, session.workspace.memory, forces, []⟩)
  generalize tree.root.force settings settings.machine.frames _ = forced at hforced ⊢
  obtain ⟨found, state⟩ := forced
  obtain ⟨hresult, hstate⟩ := Prod.mk.inj hforced
  obtain rfl : result = found.mapError Failure.settled := hresult
  obtain rfl : state = ⟨after, memory, expression.forces, events.reverse⟩ := hstate.symm
  simp [reported, Session.holding, State.events]

end Starts

theorem runEach_error {sources : List String} {report : Report} {after : Session} {failure : Failure}
    (hrun : session.run source [] = .ok (report, after)) (hresult : report.result = .error failure) :
    session.runEach (source :: sources) = .ok ([report], after) := by
  rw [runEach, hrun]
  simp only [bind, Except.bind, hresult]
  rfl

theorem runEach_ok {sources : List String} {report : Report} {reports : List Report} {after ended : Session}
    {value : Value} (hrun : session.run source [] = .ok (report, after)) (hresult : report.result = .ok value)
    (hrest : after.runEach sources = .ok (reports, ended)) :
    session.runEach (source :: sources) = .ok (report :: reports, ended) := by
  rw [runEach, hrun]
  simp only [bind, Except.bind, hresult, hrest]
  rfl

/-- An evaluation in this session has the result, up to the place of a failure, leaves the lines after
the earlier ones, and ends like the other session; or, if there are limits, it is cut off. -/
inductive Tells (limited : Prop) (session : Session) (earlier : List Event)
    (result : Except Failure Value) (lines : List Effect) (ended : Session) : Outcome → Prop
  | deep {state : State} (h : limited) :
      Tells limited session earlier result lines ended (.error .tooDeep, state)
  | told {found : Except Failure Value} {state : State}
      (hresult : (found.mapError Failure.settled).mapError Failure.unplaced =
        result.mapError Failure.unplaced)
      (hended : session.holding state.environment state.memory = ended)
      (hlines : Report.linesOf state.trail = Report.linesOf earlier ++ lines) :
      Tells limited session earlier result lines ended (found, state)

section Told

variable {limited : Prop} {earlier older : List Event} {result : Except Failure Value}
  {lines : List Effect} {ended : Session}

/-- What an evaluation tells, its echo tells. -/
theorem Tells.of_echoes {left right : Outcome} (h : Tells limited session earlier result lines ended right)
    (hechoes : Echoes limited [] left right) : Tells limited session earlier result lines ended left := by
  cases hechoes with
  | deep hlimited => exact .deep hlimited
  | ok hstate =>
    cases h with
    | told hresult hended hlines =>
      refine .told hresult ?_ ?_
      · rw [hstate.environment, hstate.memory, hended]
      · rw [hstate.trail, List.append_nil, hlines]
  | error hfailure hstate =>
    cases h with
    | deep hlimited =>
      obtain rfl := Failure.eq_tooDeep_of_unplaced hfailure
      exact .deep hlimited
    | told hresult hended hlines =>
      refine .told ?_ ?_ ?_
      · rw [← hresult]
        exact congrArg Except.error (Failure.unplaced_settled hfailure)
      · rw [hstate.environment, hstate.memory, hended]
      · rw [hstate.trail, List.append_nil, hlines]

/-- Lines may be counted among the earlier ones or not. -/
theorem Tells.regroup {outcome : Outcome} {more : List Effect}
    (h : Tells limited session earlier result lines ended outcome)
    (hlines : Report.linesOf earlier ++ lines = Report.linesOf older ++ more) :
    Tells limited session older result more ended outcome := by
  cases h with
  | deep hlimited => exact .deep hlimited
  | told hresult hended hfound => exact .told hresult hended (hfound.trans hlines)

/-- If an evaluation echoes that of a source and goes on as the other sources do, it tells what running
them all does. -/
theorem runEach_told {start : Session} {sources : List String} {alone outcome : Outcome}
    {next : Value → State → Outcome}
    (hrun : start.run source [] = .ok (session.reported source alone))
    (hechoes : Echoes limited older outcome alone)
    (hrest : ∀ ⦃value state⦄, alone = (.ok value, state) → ∀ after : State,
      after.environment = state.environment → after.memory = state.memory → ∃ reports ended,
        (session.holding state.environment state.memory).runEach sources = .ok (reports, ended) ∧
          Tells limited session after.trail (Report.resultAfter value reports)
            (Report.linesAfter value reports) ended (next value after)) :
    ∃ reports ended, start.runEach (source :: sources) = .ok (reports, ended) ∧
      ∃ last ∈ reports.getLast?, Tells limited session older last.result (Report.joinedLines reports)
        ended (outcome.andThen next) := by
  obtain ⟨failure | value, state⟩ := alone
  · have hlines := Report.lines_of source (.error failure.settled) state
    refine ⟨_, _, runEach_error hrun rfl, _, rfl, ?_⟩
    cases hechoes with
    | deep hlimited => exact .deep hlimited
    | error hfailure hstate =>
      refine .told (congrArg Except.error (Failure.unplaced_settled hfailure)) ?_ ?_
      · rw [hstate.environment, hstate.memory]
      · rw [hstate.trail, Report.linesOf_append, ← hlines]
        rfl
  · have hreported : start.run source [] = .ok (.of source (.ok value) state.events,
        session.holding state.environment state.memory) := hrun
    have hvalue := Report.result_of source (.ok value) state.events
    have hlines := Report.lines_of source (.ok value) state
    cases hechoes with
    | deep hlimited =>
      obtain ⟨reports, ended, hran, -⟩ := hrest rfl state rfl rfl
      obtain ⟨last, hlast, -⟩ := Report.exists_last hvalue reports
      exact ⟨_, _, runEach_ok hreported hvalue hran, last, hlast, .deep hlimited⟩
    | @ok _ after _ hstate =>
      obtain ⟨reports, ended, hran, htells⟩ := hrest rfl after hstate.environment hstate.memory
      obtain ⟨last, hlast, hresult⟩ := Report.exists_last hvalue reports
      refine ⟨_, _, runEach_ok hreported hvalue hran, last, hlast, ?_⟩
      rw [hresult]
      refine htells.regroup ?_
      rw [hstate.trail, Report.linesOf_append, Report.joinedLines_cons hvalue, hlines, List.append_assoc]

/-- The steps of a script tell what running their sources one after another does. -/
theorem Starts.steps_told {next : Option Nat} (hnext : Narrower next settings.machine.frames)
    (hlimited : next.isSome = true → limited) (id : Nat) {sources : List String} {trees : List Tree}
    (htrees : List.Forall₂ (fun source tree =>
      Registry.standard.freeze.treeOf settings.context source = .ok tree) sources trees)
    (value : Value) {state : State}
    (h : (session.holding state.environment state.memory).Starts settings state.environment) :
    ∃ reports ended, (session.holding state.environment state.memory).runEach sources =
        .ok (reports, ended) ∧
      Tells limited session state.trail (Report.resultAfter value reports)
        (Report.linesAfter value reports) ended
        (applySteps settings next id Library.sequenceOperator value
          (stepsOf settings (trees.map Tree.root)) state) := by
  induction htrees generalizing value state with
  | nil => exact ⟨[], _, rfl, .told rfl rfl (List.append_nil _).symm⟩
  | @cons source tree sources trees htree _ ih =>
    obtain ⟨alone, henvironment, hmemory, htrail, hrun⟩ := h.run htree
    have hreported : (session.holding state.environment state.memory).run source [] =
        .ok (session.reported source (tree.root.force settings settings.machine.frames alone)) := hrun
    -- The step logs the value before it and then evaluates the source.
    have hstart : (((state.resetForces id).countForce id).leave (.log value.string)).Echoes
        (.log value.string :: state.trail) alone :=
      ⟨henvironment.symm, hmemory.symm, by rw [htrail]; rfl⟩
    have hdirect : tree.root.Direct := (Registry.confined_of_treeOf Registry.standard_confined htree).direct
    have hechoes : Echoes limited (.log value.string :: state.trail)
        (applyStep settings next id Library.sequenceOperator value (tree.root.operand settings) state)
        (tree.root.force settings settings.machine.frames alone) := by
      rw [Library.applyStep_sequence]
      split
      next =>
        have hinside : (inside next).isSome = true → limited := by rwa [isSome_inside]
        exact tree.root.force_echoes hdirect rfl
          (.of_narrower ((Narrower.inside_self next).trans hnext) hinside) hstart
      next hfits =>
        have hbounded : (inside next).isSome = true := isSome_of_not_fits (Bool.not_eq_true _ ▸ hfits)
        exact .deep (hlimited (isSome_inside next ▸ hbounded))
    have hstarts := h.holding tree henvironment
    obtain ⟨reports, ended, hran, last, hlast, htells⟩ :=
      runEach_told hreported (hechoes.located_left 0) fun found after hafter other hother hmemories => by
        rw [hafter, ← hother, ← hmemories] at hstarts
        have hrest := ih found hstarts
        rwa [hother, hmemories] at hrest
    refine ⟨reports, ended, hran, ?_⟩
    rw [Report.resultAfter_of_last hlast, Report.linesAfter_of_last hlast, stepsOf, List.map_cons,
      List.map_cons, applySteps_cons]
    exact htells.regroup (by simp)

/-- The evaluation of a script tells what running its sources one after another does. -/
theorem Starts.script_told (h : session.Starts settings environment)
    (htree : Registry.standard.freeze.treeOf settings.context source = .ok tree)
    {sources : List String} {trees : List Tree}
    (htrees : List.Forall₂ (fun source tree =>
      Registry.standard.freeze.treeOf settings.context source = .ok tree) sources trees)
    (hlimited : settings.machine.frames.isSome = true → limited) :
    ∃ reports ended, session.runEach (source :: sources) = .ok (reports, ended) ∧
      ∃ last ∈ reports.getLast?, ∃ outcome, session.run (script (source :: sources)) [] =
          .ok (session.reported (script (source :: sources)) outcome) ∧
        Tells limited session [] last.result (Report.joinedLines reports) ended outcome := by
  have hkeyed : Registry.standard.freeze.Keyed := Registry.keyed_standard.of_operators_eq rfl
  have hdirect {source : String} {tree : Tree}
      (htree : Registry.standard.freeze.treeOf settings.context source = .ok tree) : tree.root.Direct :=
    (Registry.confined_of_treeOf Registry.standard_confined htree).direct
  have hop := Library.operator?_semicolon
  have hchainable : Library.sequenceOperator.chainable = true := rfl
  obtain ⟨-, -, -, hfrom⟩ := Registry.exists_term_of_treeOf htree
  obtain ⟨whole, hwhole, hjoined⟩ := Registry.treeOf_script hkeyed hop rfl (by decide) htree htrees
  obtain ⟨scripted, henvironment, hmemory, htrail, hscript⟩ := h.run hwhole
  obtain ⟨alone, hsame, hmemories, hlines, hrun⟩ := h.run htree
  have hstates : scripted.Echoes [] alone :=
    ⟨henvironment.trans hsame.symm, hmemory.trans hmemories.symm, by rw [htrail, hlines]; rfl⟩
  have hechoes : Echoes limited [] (whole.root.force settings settings.machine.frames scripted)
      ((Node.joined ";" Library.sequenceOperator tree.root (trees.map Tree.root)).force settings
        settings.machine.frames scripted) :=
    whole.root.force_echoes (hdirect hwhole) hjoined (.same _) (.refl scripted)
  obtain ⟨next, id, outcome, hnext, hcut, halone, hforced⟩ := Node.force_joined hop hchainable hfrom
    (hdirect htree) hlimited (trees.map Tree.root) hstates
  rw [hforced] at hechoes
  have hstarts := h.holding tree hsame
  obtain ⟨reports, ended, hran, last, hlast, htells⟩ :=
    runEach_told hrun halone fun value after hafter state hstate hremembered => by
      rw [hafter, ← hstate, ← hremembered] at hstarts
      have hrest := hstarts.steps_told hnext hcut id htrees value
      rwa [hstate, hremembered] at hrest
  exact ⟨reports, ended, hran, last, hlast, _, hscript, htells.of_echoes hechoes⟩

end Told

/-- Running sources one after another, up to the first that fails, is like running their script. The script
ends with the value of the last source that was run, or with its failure up to the place, and in the same
session; and it leaves the same lines in order, with the text of the value behind those of each source
before the last. Only where the stack is bounded can the script be cut off. -/
theorem script_runs_as_sources (hsettings : session.settings = .ok settings)
    (hpresets : session.presets = [])
    (hregistry : session.workspace.registry.freeze = Registry.standard.freeze)
    {sources : List String} (hsources : sources ≠ [])
    (htrees : ∀ source ∈ sources, ∃ tree,
      Registry.standard.freeze.treeOf settings.context source = .ok tree) :
    ∃ reports ended whole after, session.runEach sources = .ok (reports, ended) ∧
      session.run (script sources) [] = .ok (whole, after) ∧
      (((∃ last ∈ reports.getLast?,
          whole.result.mapError Failure.unplaced = last.result.mapError Failure.unplaced) ∧
        after = ended ∧ whole.lines = Report.joinedLines reports) ∨
      (session.machine.frames.isSome = true ∧ whole.result = .error (.of .nestedTooDeeply))) := by
  obtain ⟨environment, hstarts⟩ := exists_starts hsettings hpresets hregistry
  obtain ⟨-, -, hmachine⟩ := settings_inversion hsettings
  obtain ⟨trees, hall, -⟩ := Registry.exists_trees htrees
  cases hall with
  | nil => exact absurd rfl hsources
  | cons htree hrest =>
    have hlimited : settings.machine.frames.isSome = true → session.machine.frames.isSome = true := by
      rw [hmachine]
      exact id
    obtain ⟨reports, ended, hran, last, hlast, outcome, hscript, htells⟩ :=
      hstarts.script_told htree hrest hlimited
    refine ⟨reports, ended, _, _, hran, hscript, ?_⟩
    cases htells with
    | deep hbounded => exact .inr ⟨hbounded, rfl⟩
    | told hresult hended hlines =>
      refine .inl ⟨⟨last, hlast, ?_⟩, hended, ?_⟩
      · rw [Report.result_of]
        exact hresult
      · rw [Report.lines_of, hlines]
        rfl

def opening : Session := { config := {}, workspace := ⟨.standard, .empty, .empty⟩, presets := [] }

def unfinished : List String := ["x = 2", "y = x; print(x + 1)", "x / (y - 2)", "x = 5"]

theorem exists_trees_of_isOk {sources : List String}
    (h : (sources.all fun source => (Registry.standard.freeze.treeOf ⟨34, .halfEven⟩ source).isOk) = true) :
    ∀ source ∈ sources, ∃ tree, Registry.standard.freeze.treeOf ⟨34, .halfEven⟩ source = .ok tree := by
  intro source hsource
  have hok := List.all_eq_true.mp h source hsource
  cases htree : Registry.standard.freeze.treeOf ⟨34, .halfEven⟩ source with
  | ok tree => exact ⟨tree, rfl⟩
  | error failure =>
    rw [htree] at hok
    cases hok

/-- Two lines are there for the values of the first two sources, and two that the second leaves. -/
theorem unfinished_runs_as_script :
    start {} .standard {} = .ok opening ∧
      script unfinished = "(x = 2) ; (y = x; print(x + 1)) ; (x / (y - 2)) ; (x = 5)" ∧
      ∃ reports ended whole after, opening.runEach unfinished = .ok (reports, ended) ∧
        opening.run (script unfinished) [] = .ok (whole, after) ∧ reports.length = 3 ∧
        whole.lines = [⟨.log, "2"⟩, ⟨.log, "2"⟩, ⟨.output, "3"⟩, ⟨.log, "3"⟩] ∧
        (∃ last ∈ reports.getLast?,
          whole.result.mapError Failure.unplaced = last.result.mapError Failure.unplaced) ∧
        after = ended ∧ whole.lines = Report.joinedLines reports := by
  have hsettings : opening.settings = .ok { context := ⟨34, .halfEven⟩, machine := Config.machine } := rfl
  have hsources : unfinished ≠ [] := List.cons_ne_nil _ _
  have hread : (unfinished.all fun source =>
      (Registry.standard.freeze.treeOf ⟨34, .halfEven⟩ source).isOk) = true := by
    decide +kernel
  have hlength : (opening.runEach unfinished).toOption.map (fun ran => ran.1.length) = some 3 := by
    decide +kernel
  have hwhole : (opening.run (script unfinished) []).toOption.map
      (fun ran => (ran.1.lines, ran.1.failure? == some (.of .nestedTooDeeply))) =
        some ([⟨.log, "2"⟩, ⟨.log, "2"⟩, ⟨.output, "3"⟩, ⟨.log, "3"⟩], false) := by
    decide +kernel
  obtain ⟨reports, ended, whole, after, hran, hscript, hends⟩ :=
    script_runs_as_sources hsettings rfl rfl hsources (exists_trees_of_isOk hread)
  rw [hran] at hlength
  rw [hscript] at hwhole
  obtain ⟨hlines, huncut⟩ := Prod.mk.inj (Option.some.inj hwhole)
  obtain hsame | ⟨-, hdeep⟩ := hends
  · exact ⟨rfl, by decide, reports, ended, whole, after, hran, hscript, Option.some.inj hlength, hlines, hsame⟩
  · exact absurd hdeep (Report.result_ne_of_failure? huncut)

def deepList : List String := ["reduce(loop(acc = list(acc), 400), list(0), 0)", "1"]

theorem exists_ok_of_answer {α β : Type} {result : Except Failure α} {f : α → β} {b : β}
    (h : result.toOption.map f = some b) : ∃ a, result = .ok a ∧ f a = b := by
  cases result with
  | ok a => exact ⟨a, rfl, Option.some.inj h⟩
  | error failure => cases h

/-- The semicolon behind the first source logs the text of the list, for which the stack is too small. So the
script is cut off, while both sources have values. -/
theorem deepList_cut_in_script :
    (∀ source ∈ deepList, ∃ tree, Registry.standard.freeze.treeOf ⟨34, .halfEven⟩ source = .ok tree) ∧
      ∃ reports ended whole after, opening.runEach deepList = .ok (reports, ended) ∧
        opening.run (script deepList) [] = .ok (whole, after) ∧
        reports.map Report.failure? = [none, none] ∧
        whole.failure? = some (.of .nestedTooDeeply) := by
  have hread : (deepList.all fun source =>
      (Registry.standard.freeze.treeOf ⟨34, .halfEven⟩ source).isOk) = true := by
    decide +kernel
  have heach : (opening.runEach deepList).toOption.map (fun ran => ran.1.map Report.failure?) =
      some [none, none] := by
    decide +kernel
  have hwhole : (opening.run (script deepList) []).toOption.map (fun ran => ran.1.failure?) =
      some (some (.of .nestedTooDeeply)) := by
    decide +kernel
  obtain ⟨⟨reports, ended⟩, hran, hvalues⟩ := exists_ok_of_answer heach
  obtain ⟨⟨whole, after⟩, hscript, hcut⟩ := exists_ok_of_answer hwhole
  exact ⟨exists_trees_of_isOk hread, reports, ended, whole, after, hran, hscript, hvalues, hcut⟩

end Session

end Formula
