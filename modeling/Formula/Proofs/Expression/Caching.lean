import Formula.Proofs.Evaluation.Repetition
import Formula.Proofs.Evaluation.Tree
import Formula.Proofs.Expression.Bench
import Formula.Proofs.Expression.Reading
import Formula.Proofs.Expression.Seeding
import Formula.Proofs.Registry.Closing
import Formula.Proofs.Rpn.Reference

/-! # What is kept does not show

Tokens, notation and tree of an expression are found at different times, while other expressions change
the environment that it runs in. As long as the registry's entries stay, whatever is kept is what the text
gives, so an evaluation cannot be told from that of a new expression.
-/
namespace Formula

/-- The outcome of a text does not depend on how often nodes were forced before. -/
theorem Registry.outcomeOf_agrees {registry : Registry} (hdiscreet : registry.Discreet)
    (settings : Settings) (source : String) {s t : State} (h : s.Agrees t) :
    Agree (registry.outcomeOf settings source s) (registry.outcomeOf settings source t) := by
  unfold outcomeOf
  cases htree : registry.treeOf settings.context source with
  | error failure => exact .error failure h
  | ok tree =>
    obtain ⟨rpn, hrpn, hbuilt⟩ := exists_of_bind_eq_ok htree
    obtain ⟨tokens, -, hchecked⟩ := exists_of_bind_eq_ok hrpn
    obtain ⟨-, hvalid⟩ := Rpn.checked_eq_ok_iff.mp hchecked
    obtain ⟨-, -, -, -, -, hfrom⟩ := Tree.exists_plain_of_ofRpn hvalid hbuilt
    exact Tree.evaluate_agrees hdiscreet hfrom h

theorem Workspace.eq_of_fields {workspace other : Workspace} (hregistry : workspace.registry = other.registry)
    (henvironment : workspace.environment = other.environment) (hmemory : workspace.memory = other.memory) :
    workspace = other := by
  obtain ⟨registry, environment, memory⟩ := workspace
  obtain ⟨⟩ := other
  obtain rfl := hregistry
  obtain rfl := henvironment
  obtain rfl := hmemory
  rfl

namespace Expression

variable {registry closed : Registry} {expression : Expression} {workspace : Workspace}

theorem scanned_freeze (expression : Expression) (registry : Registry) :
    expression.scanned registry.freeze = expression.scanned registry := by
  simp only [scanned, tokenize_freeze]

theorem listed_freeze (expression : Expression) (registry : Registry) :
    expression.listed registry.freeze = expression.listed registry := by
  simp only [listed, scanned_freeze, Rpn.checked_freeze]

theorem tree_scanned (expression : Expression) (registry : Registry) :
    (expression.scanned registry).2.tree = expression.tree := by
  unfold scanned
  split
  · rfl
  · split <;> rfl

theorem tree_listed (expression : Expression) (registry : Registry) :
    (expression.listed registry).2.tree = expression.tree := by
  have hscanned := expression.tree_scanned registry
  unfold listed
  split
  · rfl
  · split
    next heq =>
      rw [heq] at hscanned
      exact hscanned
    next heq =>
      rw [heq] at hscanned
      split <;> exact hscanned

/-- The registry is closed by the first evaluation. -/
theorem registry_after_evaluate (expression : Expression) (workspace : Workspace) :
    (expression.evaluate workspace).workspace.registry =
      if expression.tree.isSome then workspace.registry else workspace.registry.freeze := by
  unfold evaluate
  dsimp only
  split <;> rfl

/-- The expression keeps what its text gives under the closed registry, and a tree only once the registry
is closed. -/
structure Sound (closed : Registry) (workspace : Workspace) (expression : Expression) : Prop where
  faithful : expression.Faithful closed
  open_untreed : expression.tree.isSome = true → workspace.registry = closed

/-- After this work the expression is sound, and the workspace has lost nothing that other expressions
rely on. -/
structure WorksOn (closed : Registry) (workspace after : Workspace) (expression : Expression) : Prop where
  sound : expression.Sound closed after
  registry : after.registry.freeze = closed
  stays_closed : workspace.registry = closed → after.registry = closed
  names : workspace.environment.StaysIn after.environment

namespace Sound

variable (hregistry : workspace.registry.freeze = closed)

include hregistry in
/-- What changes neither tree nor workspace. -/
theorem worksOn_of_faithful (h : expression.Sound closed workspace) {after : Expression}
    (hfaithful : after.Faithful closed) (htree : after.tree = expression.tree) :
    WorksOn closed workspace workspace after where
  sound := ⟨hfaithful, fun hsome => h.open_untreed (htree ▸ hsome)⟩
  registry := hregistry
  stays_closed := id
  names := .refl _

include hregistry in
theorem scanned (h : expression.Sound closed workspace) :
    WorksOn closed workspace workspace (expression.scanned workspace.registry).2 := by
  refine h.worksOn_of_faithful hregistry ?_ (expression.tree_scanned _)
  rw [← scanned_freeze, hregistry]
  exact h.faithful.scanned.faithful

include hregistry in
theorem listed (h : expression.Sound closed workspace) :
    WorksOn closed workspace workspace (expression.listed workspace.registry).2 := by
  refine h.worksOn_of_faithful hregistry ?_ (expression.tree_listed _)
  rw [← listed_freeze, hregistry]
  exact h.faithful.listed.faithful

include hregistry in
theorem closed_by_evaluate (h : expression.Sound closed workspace) :
    (expression.evaluate workspace).workspace.registry = closed := by
  rw [registry_after_evaluate]
  split
  next hsome => exact h.open_untreed hsome
  next => exact hregistry

include hregistry in
theorem evaluate (h : expression.Sound closed workspace) :
    WorksOn closed workspace (expression.evaluate workspace).workspace
      (expression.evaluate workspace).expression := by
  have hfaithful := h.faithful
  rw [← hregistry] at hfaithful
  have hclosed := h.closed_by_evaluate hregistry
  refine ⟨⟨?_, fun _ => hclosed⟩, ?_, fun _ => hclosed, expression.stays_evaluate workspace⟩
  · rw [← hregistry]
    exact (evaluate_outcome hfaithful).2
  · rw [registry_evaluate, hregistry]

include hregistry in
/-- What an expression keeps does not show in its evaluation. -/
theorem evaluate_eq (hdiscreet : closed.Discreet) {other : Expression}
    (h : expression.Sound closed workspace) (hother : other.Sound closed workspace)
    (hsource : expression.source = other.source) (hsettings : expression.settings = other.settings) :
    (expression.evaluate workspace).result = (other.evaluate workspace).result ∧
      (expression.evaluate workspace).events = (other.evaluate workspace).events ∧
      (expression.evaluate workspace).workspace = (other.evaluate workspace).workspace := by
  have hfaithful := h.faithful
  have hotherFaithful := hother.faithful
  rw [← hregistry] at hfaithful hotherFaithful
  obtain ⟨⟨forces, houtcome⟩, -⟩ := evaluate_outcome hfaithful
  obtain ⟨⟨counts, hotherOutcome⟩, -⟩ := evaluate_outcome hotherFaithful
  have hagree := Registry.outcomeOf_agrees hdiscreet other.settings other.source
    (s := ⟨workspace.environment, workspace.memory, forces, []⟩)
    (t := ⟨workspace.environment, workspace.memory, counts, []⟩) ⟨rfl, rfl, rfl⟩
  rw [← hregistry, ← hotherOutcome, ← hsource, ← hsettings, ← houtcome] at hagree
  obtain ⟨hresult, henvironment, hmemory, htrail⟩ := hagree
  refine ⟨hresult, List.reverse_injective htrail, Workspace.eq_of_fields ?_ henvironment hmemory⟩
  rw [h.closed_by_evaluate hregistry, hother.closed_by_evaluate hregistry]

end Sound

end Expression

namespace Bench

open Expression

structure Sound (closed : Registry) (bench : Bench) : Prop where
  registry : bench.workspace.registry.freeze = closed
  expressions : ∀ expression ∈ bench.expressions, expression.Sound closed bench.workspace
  constants : bench.expressions ≠ [] → ∀ constant ∈ closed.constants.entries,
    bench.workspace.environment.contains constant.1 = true

variable {closed : Registry} {bench after : Bench}

theorem sound_new (workspace : Workspace) : Sound workspace.registry.freeze ⟨workspace, []⟩ where
  registry := rfl
  expressions _ h := absurd h List.not_mem_nil
  constants h := absurd rfl h

theorem Sound.revise (h : bench.Sound closed) {index : Nat}
    {work : Expression → Workspace → Expression × Workspace}
    (hwork : ∀ expression, expression.Sound closed bench.workspace →
      WorksOn closed bench.workspace (work expression bench.workspace).2
        (work expression bench.workspace).1) :
    (bench.revise index work).Sound closed := by
  obtain hsame | ⟨expression, hmem, hrevised⟩ := bench.revise_inversion index work
  · rw [hsame]
    exact h
  · obtain ⟨hsound, hregistry, hclosed, hnames⟩ := hwork expression (h.expressions expression hmem)
    rw [hrevised]
    refine ⟨hregistry, fun other hother => ?_, fun _ constant hconstant => ?_⟩
    · obtain hother | rfl := List.mem_or_eq_of_mem_set hother
      · have hkept := h.expressions other hother
        exact ⟨hkept.faithful, fun hsome => hclosed (hkept.open_untreed hsome)⟩
      · exact hsound
    · exact hnames (h.constants (List.ne_nil_of_mem hmem) constant hconstant)

theorem Sound.make (h : bench.Sound closed) {source : String} {settings : Settings}
    {expression : Expression} {workspace : Workspace}
    (hmade : Expression.make source settings bench.workspace = .ok (expression, workspace)) :
    Sound closed ⟨workspace, bench.expressions ++ [expression]⟩ := by
  obtain ⟨environment, hseed, rfl, rfl⟩ := make_inversion hmade
  obtain ⟨-, hconstants⟩ := Environment.contains_seed hseed
  refine ⟨h.registry, fun other hother => ?_, fun _ constant hconstant => ?_⟩
  · obtain hother | hother := List.mem_append.mp hother
    · have hkept := h.expressions other hother
      exact ⟨hkept.faithful, hkept.open_untreed⟩
    · obtain rfl := List.mem_singleton.mp hother
      exact ⟨faithful_new closed source settings, nofun⟩
  · rw [← h.registry] at hconstant
    exact hconstants constant hconstant

theorem Sound.perform (h : bench.Sound closed) {task : Task} (hsteady : task.Steady)
    (hafter : bench.perform task = .ok after) : after.Sound closed := by
  cases task with
  | make source settings =>
    obtain ⟨⟨expression, workspace⟩, hmade, hafter⟩ := exists_of_bind_eq_ok hafter
    obtain rfl := Except.ok.inj hafter
    exact h.make hmade
  | scan index =>
    obtain rfl := Except.ok.inj hafter
    exact h.revise fun expression hsound => hsound.scanned h.registry
  | list index =>
    obtain rfl := Except.ok.inj hafter
    exact h.revise fun expression hsound => hsound.listed h.registry
  | evaluate index =>
    obtain rfl := Except.ok.inj hafter
    exact h.revise fun expression hsound => hsound.evaluate h.registry
  | assign index name datum =>
    obtain rfl := Except.ok.inj hafter
    refine h.revise fun expression hsound => ?_
    cases hset : bench.workspace.environment.set expression.settings.context name datum with
    | ok environment =>
      exact ⟨⟨hsound.faithful, hsound.open_untreed⟩, h.registry, id, Environment.stays_set hset⟩
    | error failure => exact hsound.worksOn_of_faithful h.registry hsound.faithful rfl
  | fetch name =>
    obtain rfl := Except.ok.inj hafter
    refine ⟨h.registry, fun expression hmem => ?_, fun hne constant hconstant => ?_⟩
    · exact ⟨(h.expressions expression hmem).faithful, (h.expressions expression hmem).open_untreed⟩
    · exact Environment.StaysIn.read _ name (h.constants hne constant hconstant)
  | register registration => exact hsteady.elim
  | enter environment memory => exact hsteady.elim

theorem Sound.performAll (h : bench.Sound closed) {tasks : List Task}
    (hsteady : ∀ task ∈ tasks, task.Steady) (hafter : bench.performAll tasks = .ok after) :
    after.Sound closed := by
  induction tasks generalizing bench with
  | nil =>
    obtain rfl := Except.ok.inj hafter
    exact h
  | cons task tasks ih =>
    obtain ⟨htask, htasks⟩ := List.forall_mem_cons.mp hsteady
    obtain ⟨middle, hperformed, hrest⟩ := exists_of_bind_eq_ok hafter
    exact ih (h.perform htask hperformed) htasks hrest

/-- Whatever was done at the bench without extending its registry: a new expression with the text and the
settings of one that is there can be made without any effect, and evaluating either of the two gives the
same value or failure, leaves the same lines in the same order, and ends in the same workspace. -/
theorem evaluates_as_new {workspace : Workspace} (hdiscreet : workspace.registry.Discreet)
    {tasks : List Task} (hsteady : ∀ task ∈ tasks, task.Steady)
    (hbench : performAll ⟨workspace, []⟩ tasks = .ok bench) {expression : Expression}
    (hmem : expression ∈ bench.expressions) :
    ∃ new, Expression.make expression.source expression.settings bench.workspace =
        .ok (new, bench.workspace) ∧
      (expression.evaluate bench.workspace).result = (new.evaluate bench.workspace).result ∧
      (expression.evaluate bench.workspace).events = (new.evaluate bench.workspace).events ∧
      (expression.evaluate bench.workspace).workspace = (new.evaluate bench.workspace).workspace := by
  have hsound := (sound_new workspace).performAll hsteady hbench
  have hclosed : workspace.registry.freeze.Discreet := ⟨hdiscreet.operators, hdiscreet.functions⟩
  have hseed : bench.workspace.environment.seed expression.settings.context
      bench.workspace.registry.constants.entries = .ok bench.workspace.environment := by
    have hconstants := congrArg Registry.constants hsound.registry
    refine Environment.seed_of_contains fun constant hconstant => ?_
    exact hsound.constants (List.ne_nil_of_mem hmem) constant (hconstants ▸ hconstant)
  refine ⟨{ source := expression.source, settings := expression.settings }, ?_, ?_⟩
  · rw [Expression.make, hseed]
    rfl
  · exact (hsound.expressions expression hmem).evaluate_eq hsound.registry hclosed
      ⟨faithful_new _ _ _, nofun⟩ rfl rfl

def halves : List Task :=
  [.make "x = x + 1; y / x" { context := ⟨34, .halfEven⟩ }, .list 0,
   .make "print(x = x + 2); 1 / 0" { context := ⟨34, .halfEven⟩ }, .evaluate 1, .evaluate 0,
   .assign 0 "y" (.text "12"), .evaluate 1, .fetch "z", .evaluate 0]

theorem halves_evaluate_as_new :
    ∃ (bench : Bench) (expression new : Expression),
      performAll ⟨⟨.standard, .empty, .empty⟩, []⟩ halves = .ok bench ∧
      bench.expressions[1]? = some expression ∧ expression.tree.isSome = true ∧
      Expression.make expression.source expression.settings bench.workspace =
        .ok (new, bench.workspace) ∧
      (expression.evaluate bench.workspace).result = (new.evaluate bench.workspace).result ∧
      (expression.evaluate bench.workspace).events = (new.evaluate bench.workspace).events ∧
      (expression.evaluate bench.workspace).workspace = (new.evaluate bench.workspace).workspace := by
  have hbuilt : (performAll ⟨⟨.standard, .empty, .empty⟩, []⟩ halves).toOption.map (fun bench =>
      bench.expressions[1]?.map fun expression => expression.tree.isSome) = some (some true) := by
    decide +kernel
  cases hbench : performAll ⟨⟨.standard, .empty, .empty⟩, []⟩ halves with
  | error failure =>
    rw [hbench] at hbuilt
    cases hbuilt
  | ok bench =>
    rw [hbench] at hbuilt
    cases hexpression : bench.expressions[1]? with
    | none => simp [Except.toOption, hexpression] at hbuilt
    | some expression =>
      have htree : expression.tree.isSome = true := by simpa [Except.toOption, hexpression] using hbuilt
      have hsteady : ∀ task ∈ halves, task.Steady := by simp [halves, Task.Steady]
      obtain ⟨new, hmade, hsame⟩ := evaluates_as_new Registry.standard_keeps.discreet hsteady hbench
        (List.mem_of_getElem? hexpression)
      exact ⟨bench, expression, new, rfl, hexpression, htree, hmade, hsame⟩

end Bench

end Formula
