import Formula.Proofs.Expression.NumberText
import Formula.Proofs.Session.Script

/-! # Grouping does not matter

Statements may be put together by semicolons two at a time, in any grouping. Runs that group to the left are
kept flat, others nest; but every grouping runs as its statements do one after another, unless the stack is too
small for it.
-/
namespace Formula

theorem Outcome.andThen_ok (outcome : Outcome) :
    (outcome.andThen fun value state => (.ok value, state)) = outcome := by
  obtain ⟨result, state⟩ := outcome
  cases result <;> rfl

theorem Outcome.located_cut {outcome : Outcome} (h : outcome.1 = .error .tooDeep) (offset : Nat) :
    (Outcome.located offset outcome).1 = .error .tooDeep := by
  obtain ⟨result, state⟩ := outcome
  obtain rfl : result = .error .tooDeep := h
  rfl

theorem Outcome.cut_andThen {outcome : Outcome} (h : outcome.1 = .error .tooDeep) (offset : Nat)
    (next : Value → State → Outcome) :
    ((Outcome.located offset outcome).andThen next).1 = .error .tooDeep := by
  obtain ⟨result, state⟩ := outcome
  obtain rfl : result = .error .tooDeep := h
  rfl

namespace Report

/-- The lines of further reports stand behind one for the last value. -/
theorem joinedLines_append {reports : List Report} {last : Report} {value : Value}
    (hlast : last ∈ reports.getLast?) (hvalue : last.result = .ok value) (more : List Report) :
    joinedLines (reports ++ more) = joinedLines reports ++ linesAfter value more := by
  induction reports with
  | nil => cases hlast
  | cons report reports ih =>
    cases reports with
    | nil =>
      obtain rfl : report = last := by simpa using hlast
      exact joinedLines_cons hvalue more
    | cons next reports =>
      have hrest := ih (by simpa using hlast)
      simp only [List.cons_append] at hrest
      simp only [List.cons_append, joinedLines, hrest, List.append_assoc]

end Report

namespace Session

inductive Grouping where
  | statement (source : String)
  | joined (left right : Grouping)

namespace Grouping

def text : Grouping → String
  | statement source => source
  | joined left right => script [left.text, right.text]

def statements : Grouping → List String
  | statement source => [source]
  | joined left right => left.statements ++ right.statements

end Grouping

variable {session middle ended : Session} {settings : Settings} {environment : Environment}
  {sources : List String} {reports more : List Report}

abbrev Runs := Session → Except Failure (List Report × Session)

def runThen (source : String) (next : Value → Runs) : Runs := fun session => do
  let (report, session) ← session.run source []
  match report.result with
  | .error _ => return ([report], session)
  | .ok value =>
    let (reports, session) ← next value session
    return (report :: reports, session)

/-- Where the source fails the run ends, and else it goes on. -/
theorem runThen_inversion {source : String} {next : Value → Runs}
    (hran : runThen source next session = .ok (reports, ended)) :
    ∃ report after, session.run source [] = .ok (report, after) ∧
      ((∃ failure, report.result = .error failure ∧ reports = [report] ∧ ended = after) ∨
        ∃ value later, report.result = .ok value ∧ next value after = .ok (later, ended) ∧
          reports = report :: later) := by
  obtain ⟨⟨report, after⟩, hrun, hrest⟩ := exists_of_bind_eq_ok hran
  dsimp only at hrest
  refine ⟨report, after, hrun, ?_⟩
  cases hresult : report.result with
  | error failure =>
    rw [hresult] at hrest
    obtain ⟨rfl, rfl⟩ := Prod.mk.inj (Except.ok.inj hrest)
    exact .inl ⟨failure, rfl, rfl, rfl⟩
  | ok value =>
    rw [hresult] at hrest
    obtain ⟨⟨later, last⟩, hlater, hmade⟩ := exists_of_bind_eq_ok hrest
    obtain ⟨rfl, rfl⟩ := Prod.mk.inj (Except.ok.inj hmade)
    exact .inr ⟨value, later, rfl, hlater, rfl⟩

theorem runThen_error {source : String} {next : Value → Runs}
    {report : Report} {failure : Failure} (hrun : session.run source [] = .ok (report, middle))
    (hresult : report.result = .error failure) : runThen source next session = .ok ([report], middle) := by
  rw [runThen, hrun]
  simp only [bind, Except.bind, hresult]
  rfl

theorem runThen_ok {source : String} {next : Value → Runs}
    {report : Report} {value : Value} (hrun : session.run source [] = .ok (report, middle))
    (hresult : report.result = .ok value) (hnext : next value middle = .ok (reports, ended)) :
    runThen source next session = .ok (report :: reports, ended) := by
  rw [runThen, hrun]
  simp only [bind, Except.bind, hresult, hnext]
  rfl

theorem runEach_inversion {source : String}
    (hran : session.runEach (source :: sources) = .ok (reports, ended)) :
    ∃ report after, session.run source [] = .ok (report, after) ∧
      ((∃ failure, report.result = .error failure ∧ reports = [report] ∧ ended = after) ∨
        ∃ value later, report.result = .ok value ∧ after.runEach sources = .ok (later, ended) ∧
          reports = report :: later) :=
  @runThen_inversion session ended reports source (fun _ after => after.runEach sources) hran

/-- After sources that all have a value, further ones are run. -/
theorem runEach_append_ok {rest : List String} (hran : session.runEach sources = .ok (reports, middle))
    (hvalues : ∀ last ∈ reports.getLast?, ∃ value, last.result = .ok value)
    (hmore : middle.runEach rest = .ok (more, ended)) :
    session.runEach (sources ++ rest) = .ok (reports ++ more, ended) := by
  induction sources generalizing session reports with
  | nil =>
    obtain ⟨rfl, rfl⟩ := Prod.mk.inj (Except.ok.inj hran)
    exact hmore
  | cons source sources ih =>
    obtain ⟨report, after, hrun, ⟨failure, hfailure, rfl, -⟩ | ⟨value, later, hvalue, hlater, rfl⟩⟩ :=
      runEach_inversion hran
    · obtain ⟨value, hvalue⟩ := hvalues report rfl
      rw [hfailure] at hvalue
      cases hvalue
    · have hvalues : ∀ last ∈ later.getLast?, ∃ value, last.result = .ok value := by
        intro last hlast
        refine hvalues last ?_
        cases later with
        | nil => cases hlast
        | cons next later => simpa using hlast
      exact runEach_ok hrun hvalue (ih hlater hvalues)

/-- After a failure no further source is run. -/
theorem runEach_append_error {last : Report} {failure : Failure}
    (hran : session.runEach sources = .ok (reports, ended)) (hlast : last ∈ reports.getLast?)
    (hfailure : last.result = .error failure) (rest : List String) :
    session.runEach (sources ++ rest) = .ok (reports, ended) := by
  induction sources generalizing session reports with
  | nil =>
    obtain ⟨rfl, rfl⟩ := Prod.mk.inj (Except.ok.inj hran)
    cases hlast
  | cons source sources ih =>
    obtain ⟨report, after, hrun, ⟨_, hfailed, rfl, rfl⟩ | ⟨value, later, hvalue, hlater, rfl⟩⟩ :=
      runEach_inversion hran
    · exact runEach_error hrun hfailed
    · cases later with
      | nil =>
        obtain rfl : report = last := by simpa using hlast
        rw [hvalue] at hfailure
        cases hfailure
      | cons next later => exact runEach_ok hrun hvalue (ih hlater (by simpa using hlast))

/-- A source that has a tree is reported, and another run can start after it. -/
theorem Starts.exists_run (h : session.Starts settings environment) {source : String} {tree : Tree}
    (htree : Registry.standard.freeze.treeOf settings.context source = .ok tree) :
    ∃ report after, session.run source [] = .ok (report, after) ∧
      after.Starts settings after.workspace.environment := by
  obtain ⟨state, henvironment, -, -, hrun⟩ := h.run htree
  exact ⟨_, _, hrun, h.holding tree henvironment⟩

/-- Sources that have trees are reported up to the first that fails, and another run can start after them. -/
theorem Starts.exists_runEach (h : session.Starts settings environment)
    (hbuilt : ∀ source ∈ sources, ∃ tree,
      Registry.standard.freeze.treeOf settings.context source = .ok tree) (hsources : sources ≠ []) :
    ∃ reports ended, session.runEach sources = .ok (reports, ended) ∧ (∃ last, last ∈ reports.getLast?) ∧
      ended.Starts settings ended.workspace.environment := by
  induction sources generalizing session environment with
  | nil => exact absurd rfl hsources
  | cons source sources ih =>
    obtain ⟨⟨tree, htree⟩, hbuilt⟩ := List.forall_mem_cons.mp hbuilt
    obtain ⟨report, after, hrun, hstarts⟩ := h.exists_run htree
    cases hresult : report.result with
    | error failure => exact ⟨[report], after, runEach_error hrun hresult, ⟨report, rfl⟩, hstarts⟩
    | ok value =>
      cases sources with
      | nil => exact ⟨[report], after, runEach_ok hrun hresult rfl, ⟨report, rfl⟩, hstarts⟩
      | cons next sources =>
        obtain ⟨reports, ended, hran, ⟨last, hlast⟩, hends⟩ := ih hstarts hbuilt (List.cons_ne_nil _ _)
        refine ⟨_, _, runEach_ok hrun hresult hran, ⟨last, ?_⟩, hends⟩
        cases reports with
        | nil => cases hlast
        | cons => simpa using hlast

section Pair

variable {context : Context} {left right : String} {first second whole : Tree}
  (hfirst : Registry.standard.freeze.treeOf context left = .ok first)
  (hsecond : Registry.standard.freeze.treeOf context right = .ok second)

include hfirst hsecond

/-- Two texts that have trees have one together. -/
theorem exists_tree_pair : ∃ whole,
    Registry.standard.freeze.treeOf context (script [left, right]) = .ok whole ∧
      whole.root.unplaced =
        (Node.joined ";" Library.sequenceOperator first.root [second.root]).unplaced := by
  have hkeyed : Registry.standard.freeze.Keyed := Registry.keyed_standard.of_operators_eq rfl
  exact Registry.treeOf_script hkeyed Library.operator?_semicolon rfl (by decide) hfirst (.cons hsecond .nil)

/-- The tree of both texts together does what their trees do when they are joined. -/
theorem echoes_joined (limited : Prop) (settings : Settings) (room : Option Nat) (state : State)
    (hwhole : Registry.standard.freeze.treeOf context (script [left, right]) = .ok whole) :
    Echoes limited [] (whole.root.force settings room state)
      ((Node.joined ";" Library.sequenceOperator first.root [second.root]).force settings room state) := by
  obtain ⟨_, hfound, hjoined⟩ := exists_tree_pair hfirst hsecond
  obtain rfl := Except.ok.inj (hfound.symm.trans hwhole)
  exact Node.force_echoes (Registry.confined_of_treeOf Registry.standard_confined hwhole).direct hjoined
    (.same room) (.refl state)

end Pair

theorem Grouping.statements_ne_nil (grouping : Grouping) : grouping.statements ≠ [] := by
  induction grouping with
  | statement source => exact List.cons_ne_nil _ _
  | joined left right ih _ => exact List.append_ne_nil_of_left_ne_nil ih _

/-- A text for every grouping: its parts have trees, and so it has one. -/
theorem Grouping.exists_tree {context : Context} : (grouping : Grouping) →
    (∀ source ∈ grouping.statements, ∃ tree,
      Registry.standard.freeze.treeOf context source = .ok tree) →
    ∃ tree, Registry.standard.freeze.treeOf context grouping.text = .ok tree
  | .statement source, hbuilt => hbuilt source List.mem_cons_self
  | .joined left right, hbuilt => by
    obtain ⟨hleft, hright⟩ := List.forall_mem_append.mp hbuilt
    obtain ⟨first, hfirst⟩ := left.exists_tree hleft
    obtain ⟨second, hsecond⟩ := right.exists_tree hright
    obtain ⟨whole, hwhole, -⟩ := exists_tree_pair hfirst hsecond
    exact ⟨whole, hwhole⟩

section Told

variable {limited : Prop} {earlier : List Event} {result : Except Failure Value} {lines : List Effect}

/-- What is told does not depend on where a failure is located. -/
theorem Tells.located {outcome : Outcome} (h : Tells limited session earlier result lines ended outcome)
    (offset : Nat) : Tells limited session earlier result lines ended (Outcome.located offset outcome) := by
  cases h with
  | deep hlimited => exact .deep hlimited
  | @told found state hresult hended hlines =>
    cases found with
    | ok value => exact .told hresult hended hlines
    | error failure =>
      refine .told ?_ hended hlines
      rw [← hresult]
      exact congrArg Except.error (Failure.unplaced_settled (Failure.unplaced_locate offset failure))

/-- Only what is held in the session counts. -/
theorem Tells.of_holding {memory : Table Value} {outcome : Outcome}
    (h : Tells limited (session.holding environment memory) earlier result lines ended outcome) :
    Tells limited session earlier result lines ended outcome := by
  cases h with
  | deep hlimited => exact .deep hlimited
  | told hresult hended hlines => exact .told hresult hended hlines

def TellsEach (limited : Prop) (session : Session) (earlier : List Event) (sources : List String)
    (outcome : Outcome) : Prop :=
  ∃ reports ended, session.runEach sources = .ok (reports, ended) ∧
    ∃ last ∈ reports.getLast?,
      Tells limited session earlier last.result (Report.joinedLines reports) ended outcome

theorem TellsEach.of_echoes {left right : Outcome} (h : TellsEach limited session earlier sources right)
    (hechoes : Echoes limited [] left right) : TellsEach limited session earlier sources left := by
  obtain ⟨reports, ended, hran, last, hlast, htells⟩ := h
  exact ⟨reports, ended, hran, last, hlast, htells.of_echoes hechoes⟩

theorem TellsEach.located {outcome : Outcome} (h : TellsEach limited session earlier sources outcome)
    (offset : Nat) : TellsEach limited session earlier sources (Outcome.located offset outcome) := by
  obtain ⟨reports, ended, hran, last, hlast, htells⟩ := h
  exact ⟨reports, ended, hran, last, hlast, htells.located offset⟩

/-- Wherever there are limits, an evaluation that is cut off tells what running sources does. -/
theorem TellsEach.cut (h : session.Starts settings environment)
    (hbuilt : ∀ source ∈ sources, ∃ tree,
      Registry.standard.freeze.treeOf settings.context source = .ok tree) (hsources : sources ≠ [])
    (hlimited : limited) (state : State) :
    TellsEach limited session earlier sources (.error .tooDeep, state) := by
  obtain ⟨reports, ended, hran, ⟨last, hlast⟩, -⟩ := h.exists_runEach hbuilt hsources
  exact ⟨reports, ended, hran, last, hlast, .deep hlimited⟩

theorem ok_of_mapError {found : Except Failure Value} {value : Value} {f : Failure → Failure}
    (h : Except.ok value = found.mapError f) : found = .ok value := by
  cases found with
  | ok found =>
    obtain rfl := Except.ok.inj h
    rfl
  | error failure => cases h

/-- One evaluation after another tells what running the sources of both does. -/
theorem TellsEach.andThen {rest : List String} (h : session.Starts settings environment)
    (hbuilt : ∀ source ∈ sources ++ rest, ∃ tree,
      Registry.standard.freeze.treeOf settings.context source = .ok tree)
    {outcome : Outcome} (hfirst : TellsEach limited session earlier sources outcome)
    {next : Value → State → Outcome} (hnext : ∀ value state, outcome = (.ok value, state) →
      (session.holding state.environment state.memory).Starts settings state.environment →
      TellsEach limited (session.holding state.environment state.memory)
        (.log value.string :: state.trail) rest (next value state)) :
    TellsEach limited session earlier (sources ++ rest) (outcome.andThen next) := by
  obtain ⟨reports, ended, hran, last, hlast, htells⟩ := hfirst
  have hsources : sources ≠ [] := by
    rintro rfl
    obtain ⟨rfl, -⟩ := Prod.mk.inj (Except.ok.inj hran)
    cases hlast
  cases htells with
  | @deep state hlimited =>
    exact .cut h hbuilt (List.append_ne_nil_of_left_ne_nil hsources rest) hlimited state
  | @told found state hresult hended hlines =>
    cases found with
    | error failure =>
      cases hfound : last.result with
      | ok value =>
        rw [hfound] at hresult
        cases hresult
      | error failure =>
        exact ⟨reports, ended, runEach_append_error hran hlast hfound rest, last, hlast,
          .told hresult hended hlines⟩
    | ok value =>
      have hvalue : last.result = .ok value := ok_of_mapError hresult
      obtain ⟨_, _, hsame, -, hends⟩ :=
        h.exists_runEach (List.forall_mem_append.mp hbuilt).1 hsources
      obtain ⟨-, rfl⟩ := Prod.mk.inj (Except.ok.inj (hran.symm.trans hsame))
      subst hended
      obtain ⟨more, finish, hmore, final, hfinal, htold⟩ := hnext value state rfl hends
      have hran := runEach_append_ok hran (fun other hother => ⟨value, by
        rw [Option.mem_unique hother hlast, hvalue]⟩) hmore
      refine ⟨_, finish, hran, final, by simp [List.getLast?_append, Option.mem_def.mp hfinal], ?_⟩
      have hlines : Report.linesOf (.log value.string :: state.trail) ++ Report.joinedLines more =
          Report.linesOf earlier ++ Report.joinedLines (reports ++ more) := by
        rw [Report.joinedLines_append hlast hvalue, Report.linesAfter_of_last hfinal, Report.linesOf_log,
          hlines]
        simp
      exact (htold.regroup hlines).of_holding

/-- The evaluation of a grouping tells what running its statements one after another does. -/
theorem Grouping.told (grouping : Grouping)
    (hbuilt : ∀ source ∈ grouping.statements, ∃ tree,
      Registry.standard.freeze.treeOf settings.context source = .ok tree)
    {tree : Tree} (htree : Registry.standard.freeze.treeOf settings.context grouping.text = .ok tree)
    {room : Option Nat} (hroom : Narrower room settings.machine.frames)
    (hlimited : room.isSome = true → limited) {session : Session} {state : State}
    (h : session.Starts settings state.environment) (hmemory : session.workspace.memory = state.memory) :
    TellsEach limited session state.trail grouping.statements (tree.root.force settings room state) := by
  induction grouping generalizing tree room session state with
  | statement source =>
    obtain ⟨alone, henvironment, hmemories, htrail, hrun⟩ := h.run htree
    have hstates : state.Echoes state.trail alone :=
      ⟨henvironment.symm, (hmemories.trans hmemory).symm, by rw [htrail, List.nil_append]⟩
    have hechoes : Echoes limited state.trail (tree.root.force settings room state)
        (tree.root.force settings settings.machine.frames alone) :=
      tree.root.force_echoes (Registry.confined_of_treeOf Registry.standard_confined htree).direct rfl
        (.of_narrower hroom hlimited) hstates
    have htold : TellsEach limited session state.trail [source]
        ((tree.root.force settings room state).andThen fun value state => (.ok value, state)) :=
      runEach_told hrun hechoes fun value after _ state henvironment hmemory =>
        ⟨[], _, rfl, .told rfl (by rw [henvironment, hmemory]) (List.append_nil _).symm⟩
    rwa [Outcome.andThen_ok] at htold
  | joined left right ihLeft ihRight =>
    obtain ⟨hleftBuilt, hrightBuilt⟩ := List.forall_mem_append.mp hbuilt
    obtain ⟨first, hfirst⟩ := left.exists_tree hleftBuilt
    obtain ⟨second, hsecond⟩ := right.exists_tree hrightBuilt
    -- The text is read into one tree, where a run on the left is kept flat; it does what the two trees do
    -- that the induction is about.
    have hechoes := echoes_joined hfirst hsecond limited settings room state htree
    obtain ⟨-, -, -, hfrom⟩ := Registry.exists_term_of_treeOf hfirst
    have hdirect := (Registry.confined_of_treeOf Registry.standard_confined hfirst).direct
    obtain ⟨next, id, outcome, hnext, hcut, halone, hforced⟩ :=
      Node.force_joined Library.operator?_semicolon rfl hfrom hdirect hlimited [second.root] (.refl state)
    have hleft : TellsEach limited session state.trail left.statements outcome :=
      (ihLeft hleftBuilt hfirst hroom hlimited h hmemory).of_echoes halone
    have hinside : (inside next).isSome = true → limited := by rwa [isSome_inside]
    -- The step logs the value so far, for which there may be no room, and then forces the right part, with less
    -- room than a run has.
    have hboth : TellsEach limited session state.trail (left.statements ++ right.statements)
        (outcome.andThen fun value => applySteps settings next id Library.sequenceOperator value
          (stepsOf settings [second.root])) :=
      hleft.andThen h hbuilt fun value after _ hafter => by
        rw [stepsOf, List.map_singleton, applySteps_cons, Library.applyStep_sequence]
        refine (Outcome.andThen_ok _).symm ▸ TellsEach.located ?_ 0
        split
        next =>
          exact @ihRight hrightBuilt _ hsecond _ (((Narrower.inside_self next).trans hnext).trans hroom)
            hinside _ (((after.resetForces id).countForce id).leave (.log value.string)) hafter rfl
        next hfits =>
          have hbounded : (inside next).isSome = true := isSome_of_not_fits (Bool.not_eq_true _ ▸ hfits)
          exact .cut hafter hrightBuilt right.statements_ne_nil (hinside hbounded) _
    rw [hforced] at hechoes
    exact hboth.of_echoes hechoes

end Told

/-- Every grouping of the same statements runs as they do one after another, up to the first that fails. It ends
with the value of the last statement that was run, or with its failure up to the place, and in the same session;
and it leaves the same lines in order, with the text of the value behind those of each statement before the last.
Only where the stack is bounded can it be cut off instead. -/
theorem groupings_run_alike (hsettings : session.settings = .ok settings)
    (hpresets : session.presets = [])
    (hregistry : session.workspace.registry.freeze = Registry.standard.freeze) {statements : List String}
    (hbuilt : ∀ source ∈ statements, ∃ tree,
      Registry.standard.freeze.treeOf settings.context source = .ok tree) :
    ∃ reports ended, session.runEach statements = .ok (reports, ended) ∧
      ∀ grouping : Grouping, grouping.statements = statements →
        ∃ whole after, session.run grouping.text [] = .ok (whole, after) ∧
          (((∃ last ∈ reports.getLast?,
              whole.result.mapError Failure.unplaced = last.result.mapError Failure.unplaced) ∧
            after = ended ∧ whole.lines = Report.joinedLines reports) ∨
          (session.machine.frames.isSome = true ∧ whole.result = .error (.of .nestedTooDeeply))) := by
  obtain ⟨environment, hstarts⟩ := exists_starts hsettings hpresets hregistry
  obtain ⟨-, -, hmachine⟩ := settings_inversion hsettings
  have hran : ∃ reports ended, session.runEach statements = .ok (reports, ended) := by
    cases statements with
    | nil => exact ⟨[], session, rfl⟩
    | cons source sources =>
      obtain ⟨reports, ended, hran, -⟩ := hstarts.exists_runEach hbuilt (List.cons_ne_nil _ _)
      exact ⟨reports, ended, hran⟩
  obtain ⟨reports, ended, hran⟩ := hran
  refine ⟨reports, ended, hran, ?_⟩
  rintro grouping rfl
  obtain ⟨tree, htree⟩ := grouping.exists_tree hbuilt
  obtain ⟨state, rfl, hmemory, htrail, hrun⟩ := hstarts.run htree
  have hlimited : settings.machine.frames.isSome = true → session.machine.frames.isSome = true := by
    rw [hmachine]
    exact id
  obtain ⟨found, last, hfound, final, hfinal, htells⟩ :=
    grouping.told hbuilt htree (.refl settings.machine.frames) hlimited hstarts hmemory.symm
  obtain ⟨rfl, rfl⟩ := Prod.mk.inj (Except.ok.inj (hran.symm.trans hfound))
  refine ⟨_, _, hrun, ?_⟩
  generalize tree.root.force settings settings.machine.frames state = outcome at htells
  cases htells with
  | deep hbounded => exact .inr ⟨hbounded, rfl⟩
  | told hresult hended hlines =>
    refine .inl ⟨⟨final, hfinal, ?_⟩, hended, ?_⟩
    · rw [Report.result_of]
      exact hresult
    · rw [Report.lines_of, hlines, htrail]
      rfl

def pairs : Grouping :=
  .joined (.joined (.statement "x = 2") (.statement "y = x; print(x + 1)"))
    (.joined (.statement "x / (y - 2)") (.statement "x = 5"))

theorem pairs_run_alike :
    pairs.text = "((x = 2) ; (y = x; print(x + 1))) ; ((x / (y - 2)) ; (x = 5))" ∧
      ∃ reports ended whole after, opening.runEach unfinished = .ok (reports, ended) ∧
        opening.run pairs.text [] = .ok (whole, after) ∧
        whole.lines = [⟨.log, "2"⟩, ⟨.log, "2"⟩, ⟨.output, "3"⟩, ⟨.log, "3"⟩] ∧
        (∃ last ∈ reports.getLast?,
          whole.result.mapError Failure.unplaced = last.result.mapError Failure.unplaced) ∧
        after = ended ∧ whole.lines = Report.joinedLines reports := by
  have hsettings : opening.settings = .ok { context := ⟨34, .halfEven⟩, machine := Config.machine } := rfl
  have hread : (unfinished.all fun source =>
      (Registry.standard.freeze.treeOf ⟨34, .halfEven⟩ source).isOk) = true := by
    decide +kernel
  have hwhole : (opening.run pairs.text []).toOption.map
      (fun ran => (ran.1.lines, ran.1.failure? == some (.of .nestedTooDeeply))) =
        some ([⟨.log, "2"⟩, ⟨.log, "2"⟩, ⟨.output, "3"⟩, ⟨.log, "3"⟩], false) := by
    decide +kernel
  obtain ⟨reports, ended, hran, halike⟩ :=
    groupings_run_alike hsettings rfl rfl (exists_trees_of_isOk hread)
  obtain ⟨whole, after, hrun, hends⟩ := halike pairs rfl
  rw [hrun] at hwhole
  obtain ⟨hlines, huncut⟩ := Prod.mk.inj (Option.some.inj hwhole)
  obtain hsame | ⟨-, hdeep⟩ := hends
  · exact ⟨by decide, reports, ended, whole, after, hran, hrun, hlines, hsame⟩
  · exact absurd hdeep (Report.result_ne_of_failure? huncut)

def Grouping.rightward : Nat → Grouping
  | 0 => .statement "1"
  | semicolons + 1 => .joined (.statement "1") (rightward semicolons)

theorem Grouping.statements_rightward (semicolons : Nat) :
    ∀ source ∈ (rightward semicolons).statements, source = "1" := by
  induction semicolons with
  | zero => simp [rightward, statements]
  | succ semicolons ih => simpa [rightward, statements] using ih

theorem treeOf_one (context : Context) (hround : context.round ⟨false, 1, 0⟩ = .ok ⟨false, 1, 0⟩) :
    Registry.standard.freeze.treeOf context "1" = .ok ⟨.constant 0 "1" (.ofDecimal ⟨false, 1, 0⟩), 2⟩ := by
  have htokens : tokenize Registry.standard.freeze "1" = .ok [⟨.number, "1", 0⟩] :=
    tokenize_number (by simp) (by decide +kernel)
  have hnumber : Decimal.ofText? "1" = some ⟨false, 1, 0⟩ := by decide +kernel
  rw [Registry.treeOf_literal (.inl rfl) htokens, Literal.value?_number hnumber, hround]
  rfl

theorem Grouping.exists_tree_rightward {context : Context} {one : Tree}
    (hone : Registry.standard.freeze.treeOf context "1" = .ok one) (semicolons : Nat) :
    ∃ tree, Registry.standard.freeze.treeOf context (rightward semicolons).text = .ok tree := by
  refine (rightward semicolons).exists_tree fun source hsource => ⟨one, ?_⟩
  rw [statements_rightward semicolons source hsource, hone]

/-- Where ones group to the right, every semicolon takes three frames, and without room for them all the
evaluation is cut off. -/
theorem Grouping.rightward_cut {context : Context} {one tree : Tree} {value : Value}
    (hone : Registry.standard.freeze.treeOf context "1" = .ok one)
    (hroot : one.root = .constant 0 "1" value) (semicolons room : Nat) (hroom : room < 3 * semicolons)
    (htree : Registry.standard.freeze.treeOf context (rightward semicolons).text = .ok tree)
    (state : State) : (tree.root.force settings (some room) state).1 = .error .tooDeep := by
  induction semicolons generalizing room tree state with
  | zero => cases hroom
  | succ semicolons ih =>
    obtain ⟨rest, hrest⟩ := exists_tree_rightward hone semicolons
    have hechoes := echoes_joined hone hrest False settings (some room) state htree
    have hforced : ((Node.joined ";" Library.sequenceOperator one.root [rest.root]).force settings (some room)
        state).1 = .error .tooDeep := by
      rw [hroot]
      cases room with
      | zero => rfl
      | succ room =>
        have hchain : Node.joined ";" Library.sequenceOperator (.constant 0 "1" value) [rest.root] =
            .chain 0 ";" Library.sequenceOperator (.pair (.constant 0 "1" value) 0 rest.root) := rfl
        rw [hchain, Node.force_chain_of_deeper rfl]
        change (applySteps settings (some room) 1 Library.sequenceOperator value
          (stepsOf settings [rest.root]) ((state.countForce 0).countForce 0)).1 = _
        rw [stepsOf, List.map_singleton, applySteps_cons, Library.applyStep_sequence]
        refine Outcome.cut_andThen ?_ 0 _
        split
        next hfits =>
          -- There is room for the text, and so the operand has what is left of it after three frames.
          have hsome : value.textFrames ≤ room - 2 := of_decide_eq_true hfits
          have hless : room - 2 < 3 * semicolons := by
            rw [Value.textFrames] at hsome
            omega
          exact ih (room - 2) hless hrest _
        next => rfl
    generalize (Node.joined ";" Library.sequenceOperator one.root [rest.root]).force settings (some room)
      state = outcome at hechoes hforced
    generalize tree.root.force settings (some room) state = found at hechoes ⊢
    cases hechoes with
    | deep hlimited => exact hlimited.elim
    | ok => cases hforced
    | error hfailure =>
      obtain rfl := Except.error.inj hforced
      rw [Failure.eq_tooDeep_of_unplaced hfailure]

/-- A thousand and one semicolons to the right need more frames than the stack has, so a text of ones that are
grouped in this way does not have their value. -/
theorem rightward_ones_cut :
    (∃ report after, opening.run "1" [] = .ok (report, after) ∧
      report.result = .ok (.ofDecimal ⟨false, 1, 0⟩)) ∧
    (∀ source ∈ (Grouping.rightward 1001).statements, source = "1") ∧
    ∃ whole after, opening.run (Grouping.rightward 1001).text [] = .ok (whole, after) ∧
      whole.result = .error (.of .nestedTooDeeply) := by
  have hsettings : opening.settings = .ok { context := ⟨34, .halfEven⟩, machine := Config.machine } := rfl
  obtain ⟨environment, hstarts⟩ := exists_starts hsettings rfl rfl
  have hone := treeOf_one ⟨34, .halfEven⟩ (by decide +kernel)
  obtain ⟨tree, htree⟩ := Grouping.exists_tree_rightward hone 1001
  obtain ⟨alone, -, -, -, hrun⟩ := hstarts.run hone
  obtain ⟨state, -, -, -, hwhole⟩ := hstarts.run htree
  refine ⟨⟨_, _, hrun, rfl⟩, Grouping.statements_rightward 1001, _, _, hwhole, ?_⟩
  have hcut : (tree.root.force { context := ⟨34, .halfEven⟩, machine := Config.machine }
      Config.machine.frames state).1 = .error .tooDeep :=
    Grouping.rightward_cut hone rfl 1001 Config.frameBound (by decide) htree state
  rw [Report.result_of, hcut]
  rfl

end Session

end Formula
