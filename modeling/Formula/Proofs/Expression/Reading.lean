import Formula.Expression
import Formula.Proofs.Failure.Place

/-! # Reading an expression

An expression keeps its tokens, its notation and its tree once they were found. Whatever it keeps, an
evaluation has the outcome of reading the text afresh and evaluating the tree that this gives.
-/
namespace Formula

theorem Config.machine_of_settings {config : Config} {settings : Settings}
    (h : config.settings = .ok settings) : settings.machine = Config.machine := by
  obtain ⟨context, -, hmade⟩ := exists_of_bind_eq_ok h
  obtain rfl := Except.ok.inj hmade
  rfl

namespace Registry

def rpnOf (registry : Registry) (source : String) : Except Failure (List Token) := do
  Rpn.checked registry (← tokenize registry source)

def treeOf (registry : Registry) (context : Context) (source : String) : Except Failure Tree := do
  Tree.ofRpn registry context (← registry.rpnOf source)

def outcomeOf (registry : Registry) (settings : Settings) (source : String) (state : State) : Outcome :=
  match registry.treeOf settings.context source with
  | .ok tree => tree.evaluate settings state
  | .error failure => (.error failure, state)

end Registry

/-- Whatever binding a constant keeps, seeding keeps. -/
theorem Environment.seed_keeps {P : Environment → Prop} {context : Context} {env seeded : Environment}
    {constants : List (String × Value)}
    (hbind : ∀ constant ∈ constants, ∀ value, seedValue context constant.2 = .ok value →
      ∀ env : Environment, P env → P (env.bind constant.1 value))
    (henv : P env) (h : env.seed context constants = .ok seeded) : P seeded := by
  induction constants generalizing env with
  | nil =>
    obtain rfl := Except.ok.inj h
    exact henv
  | cons constant constants ih =>
    obtain ⟨hconstant, hrest⟩ := List.forall_mem_cons.mp hbind
    obtain ⟨name, value⟩ := constant
    unfold Environment.seed at h
    split at h
    next => exact ih hrest henv h
    next =>
      obtain ⟨started, hstarted, hseeded⟩ := exists_of_bind_eq_ok h
      exact ih hrest (hconstant started hstarted env henv) hseeded

namespace Expression

/-- What the expression keeps is what its text gives. -/
structure Faithful (registry : Registry) (expression : Expression) : Prop where
  tokens : ∀ tokens ∈ expression.tokens, tokenize registry expression.source = .ok tokens
  rpn : ∀ rpn ∈ expression.rpn, registry.rpnOf expression.source = .ok rpn
  tree : ∀ tree ∈ expression.tree,
    registry.treeOf expression.settings.context expression.source = .ok tree

structure Reads {α : Type} (registry : Registry) (expression : Expression) (result : Except Failure α)
    (outcome : Except Failure α × Expression) : Prop where
  result : outcome.1 = result
  faithful : outcome.2.Faithful registry
  source : outcome.2.source = expression.source
  settings : outcome.2.settings = expression.settings

namespace Faithful

variable {registry closed : Registry} {expression : Expression}

theorem scanned (h : expression.Faithful registry) :
    Reads registry expression (tokenize registry expression.source) (expression.scanned registry) := by
  unfold Expression.scanned
  cases hkept : expression.tokens with
  | some tokens => exact ⟨(h.tokens tokens hkept).symm, h, rfl, rfl⟩
  | none =>
    cases hscan : tokenize registry expression.source with
    | error failure => exact ⟨rfl, h, rfl, rfl⟩
    | ok tokens =>
      refine ⟨rfl, ⟨?_, h.rpn, h.tree⟩, rfl, rfl⟩
      rintro _ ⟨⟩
      exact hscan

theorem listed (h : expression.Faithful registry) :
    Reads registry expression (registry.rpnOf expression.source) (expression.listed registry) := by
  unfold Expression.listed
  cases hkept : expression.rpn with
  | some rpn => exact ⟨(h.rpn rpn hkept).symm, h, rfl, rfl⟩
  | none =>
    have hscanned := h.scanned
    dsimp only
    generalize expression.scanned registry = outcome at hscanned
    obtain ⟨result, after⟩ := outcome
    obtain ⟨hresult, hfaithful, hsource, hsettings⟩ := hscanned
    unfold Registry.rpnOf
    rw [← hresult]
    cases result with
    | error failure => exact ⟨rfl, hfaithful, hsource, hsettings⟩
    | ok tokens =>
      dsimp only
      cases hchecked : Rpn.checked registry tokens with
      | error failure => exact ⟨hchecked.symm, hfaithful, hsource, hsettings⟩
      | ok rpn =>
        have hrpn : registry.rpnOf after.source = .ok rpn := by
          rw [hsource, Registry.rpnOf, ← hresult]
          exact hchecked
        refine ⟨hchecked.symm, ⟨hfaithful.tokens, ?_, hfaithful.tree⟩, hsource, hsettings⟩
        rintro _ ⟨⟩
        exact hrpn

/-- The registry is asked only where no tree is kept yet. -/
theorem built (h : expression.Faithful closed) (hregistry : expression.tree = none → registry = closed) :
    Reads closed expression (closed.treeOf expression.settings.context expression.source)
      (expression.built registry) := by
  unfold Expression.built
  cases hkept : expression.tree with
  | some tree => exact ⟨(h.tree tree hkept).symm, h, rfl, rfl⟩
  | none =>
    obtain rfl := hregistry hkept
    have hlisted := h.listed
    dsimp only
    generalize expression.listed registry = outcome at hlisted
    obtain ⟨result, after⟩ := outcome
    obtain ⟨hresult, hfaithful, hsource, hsettings⟩ := hlisted
    unfold Registry.treeOf
    rw [← hresult]
    cases result with
    | error failure => exact ⟨rfl, hfaithful, hsource, hsettings⟩
    | ok rpn =>
      dsimp only at hsettings ⊢
      rw [← hsettings]
      cases hbuilt : Tree.ofRpn registry after.settings.context rpn with
      | error failure => exact ⟨hbuilt.symm, hfaithful, hsource, hsettings⟩
      | ok tree =>
        have htree : registry.treeOf after.settings.context after.source = .ok tree := by
          rw [hsource, Registry.treeOf, ← hresult]
          exact hbuilt
        refine ⟨hbuilt.symm, ⟨hfaithful.tokens, hfaithful.rpn, ?_⟩, hsource, hsettings⟩
        rintro _ ⟨⟩
        exact htree

end Faithful

/-- Making an expression seeds the environment and does nothing else. -/
theorem make_inversion {source : String} {settings : Settings} {workspace after : Workspace}
    {expression : Expression} (h : make source settings workspace = .ok (expression, after)) :
    ∃ environment, workspace.environment.seed settings.context workspace.registry.constants.entries =
        .ok environment ∧
      expression = { source, settings } ∧ after = { workspace with environment } := by
  obtain ⟨environment, hseed, hmade⟩ := exists_of_bind_eq_ok h
  obtain ⟨hexpression, hafter⟩ := Prod.mk.inj (Except.ok.inj hmade)
  exact ⟨environment, hseed, hexpression.symm, hafter.symm⟩

theorem faithful_new (registry : Registry) (source : String) (settings : Settings) :
    ({ source, settings } : Expression).Faithful registry := ⟨nofun, nofun, nofun⟩

def Evaluated.outcome (evaluated : Evaluated) : Outcome :=
  (evaluated.result, ⟨evaluated.workspace.environment, evaluated.workspace.memory,
    evaluated.expression.forces, evaluated.events.reverse⟩)

variable {expression : Expression} {workspace : Workspace}

/-- An evaluation has the outcome of the text under the closed registry, from the workspace's state and
whatever counts of forces the expression has. Afterwards the expression is faithful still. -/
theorem evaluate_outcome (h : expression.Faithful workspace.registry.freeze) :
    (∃ forces, (expression.evaluate workspace).outcome =
      workspace.registry.freeze.outcomeOf expression.settings expression.source
        ⟨workspace.environment, workspace.memory, forces, []⟩) ∧
      (expression.evaluate workspace).expression.Faithful workspace.registry.freeze := by
  have hregistry : expression.tree = none →
      (if expression.tree.isSome then workspace.registry else workspace.registry.freeze) =
        workspace.registry.freeze := fun hnone => by simp [hnone]
  have hbuilt := h.built hregistry
  unfold evaluate
  dsimp only
  generalize expression.built _ = outcome at hbuilt
  obtain ⟨result, after⟩ := outcome
  obtain ⟨hresult, hfaithful, hsource, hsettings⟩ := hbuilt
  unfold Registry.outcomeOf
  rw [← hresult]
  cases result with
  | error failure => exact ⟨⟨after.forces, rfl⟩, hfaithful⟩
  | ok tree =>
    refine ⟨⟨after.forces, ?_⟩, hfaithful.tokens, hfaithful.rpn, hfaithful.tree⟩
    dsimp only at hsettings ⊢
    rw [hsettings]
    simp [Evaluated.outcome, State.events]

/-- A new expression has the result of its text, in some state that the workspace gives it. -/
theorem exists_result_new (source : String) (settings : Settings) (workspace : Workspace) :
    ∃ state, (evaluate { source, settings } workspace).result =
      (workspace.registry.freeze.outcomeOf settings source state).1 := by
  obtain ⟨⟨forces, houtcome⟩, -⟩ := evaluate_outcome (faithful_new workspace.registry.freeze source settings)
  exact ⟨_, congrArg Prod.fst houtcome⟩

/-- An evaluation closes the registry and changes nothing else in it. -/
theorem registry_evaluate (expression : Expression) (workspace : Workspace) :
    (expression.evaluate workspace).workspace.registry.freeze = workspace.registry.freeze := by
  have hregistry : Registry.freeze
      (if expression.tree.isSome then workspace.registry else workspace.registry.freeze) =
        workspace.registry.freeze := by
    split <;> rfl
  unfold evaluate
  dsimp only
  split <;> exact hregistry

end Expression

end Formula
