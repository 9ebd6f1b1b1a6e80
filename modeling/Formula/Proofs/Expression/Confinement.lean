import Formula.Proofs.Expression.Reading
import Formula.Proofs.Library.Confined
import Formula.Proofs.Token.Offset
import Formula.Proofs.Tree.Confined

/-! # Evaluations are confined to their text

With the standard library and in an environment whose entries hold values, evaluating a text ends with a
value or with a failure at a place of the text. What it does depends on the environment, and changes it,
only under the names of the variables in the text.
-/
namespace Formula

namespace Registry

variable {registry : Registry} {context : Context} {source : String} {s t : State}

/-- The names of the variables in a text; none if the text cannot be scanned. -/
def variableNames (registry : Registry) (source : String) : List String :=
  (((tokenize registry source).toOption.getD []).filter fun token =>
    token.kind = .variableName).map (·.surface)

theorem mem_variableNames {tokens : List Token} (h : tokenize registry source = .ok tokens)
    {token : Token} (htoken : token ∈ tokens) (hkind : token.kind = .variableName) :
    token.surface ∈ registry.variableNames source := by
  rw [variableNames, h]
  exact List.mem_map.mpr ⟨token, List.mem_filter.mpr ⟨htoken, by simpa using hkind⟩, rfl⟩

/-- A failure at a place of the text. A text without tokens fails at its start. -/
def PlacedIn (registry : Registry) (source : String) (failure : Failure) : Prop :=
  ∃ cause offset, failure = .at cause offset ∧ (tokenize registry source = .ok [] → offset = 0) ∧
    (tokenize registry source ≠ .ok [] → offset < source.length)

theorem placedIn_of_liesIn (hsource : tokenize registry source ≠ .ok []) {failure : Failure}
    (h : failure.LiesIn 0 source.length) : registry.PlacedIn source failure := by
  obtain ⟨cause, offset, rfl, -, hoffset⟩ := h
  exact ⟨cause, offset, rfl, fun hempty => absurd hempty hsource, fun _ => hoffset⟩

theorem treeOf_of_no_tokens (h : tokenize registry source = .ok []) :
    registry.treeOf context source = .error (.at .emptyExpression 0) := by
  rw [treeOf, rpnOf, h]
  rfl

/-- A text with tokens gives a tree that is confined to its variables, or a failure at one of its
characters. -/
theorem treeOf_confined (hregistry : registry.Confined) (hsource : tokenize registry source ≠ .ok []) :
    Yields (fun tree => tree.root.Confined (registry.variableNames source) source.length)
      (Failure.LiesIn 0 source.length) (registry.treeOf context source) := by
  unfold treeOf rpnOf
  cases hscan : tokenize registry source with
  | error failure => exact .error (liesIn_of_tokenize hscan)
  | ok tokens =>
    have hoffsets := offset_lt_of_tokenize hscan
    have hbound : 0 < source.length := by
      cases tokens with
      | nil => exact absurd hscan hsource
      | cons token tokens =>
        have hfirst := hoffsets token List.mem_cons_self
        omega
    have hchecked := Rpn.checked_listable hregistry.product hbound fun token htoken =>
      ⟨hoffsets token htoken, mem_variableNames hscan htoken⟩
    exact hchecked.bind fun rpn hrpn => Tree.ofRpn_confined hregistry hrpn.1 hrpn.2

/-- Evaluating a text in matching states ends alike. -/
theorem outcomeOf_confined (hregistry : registry.Confined) (settings : Settings) (source : String)
    (h : s.Matches (registry.variableNames source) t) :
    Ends (Value.Within (registry.variableNames source))
      (fun failure => registry.PlacedIn source failure ∨
        settings.machine.frames.isSome = true ∧ failure = .of .nestedTooDeeply)
      (Reached (registry.variableNames source) (registry.variableNames source) s.environment
        t.environment)
      (registry.outcomeOf settings source s) (registry.outcomeOf settings source t) := by
  unfold outcomeOf
  by_cases hsource : tokenize registry source = .ok []
  · rw [treeOf_of_no_tokens hsource]
    have hplaced : registry.PlacedIn source (.at .emptyExpression 0) :=
      ⟨_, 0, rfl, fun _ => rfl, fun hne => absurd hsource hne⟩
    exact .error (.inl hplaced) (.refl h)
  · have hyields : Yields (fun tree => tree.root.Confined (registry.variableNames source) source.length)
        (Failure.LiesIn 0 source.length) (registry.treeOf settings.context source) :=
      treeOf_confined hregistry hsource
    cases htree : registry.treeOf settings.context source with
    | error failure =>
      rw [htree] at hyields
      exact .error (.inl (placedIn_of_liesIn hsource hyields.of_error)) (.refl h)
    | ok tree =>
      rw [htree] at hyields
      refine (tree.evaluate_confined hyields.of_ok settings h).imp_failure fun failure hfailure => ?_
      exact hfailure.imp_left (placedIn_of_liesIn hsource)

end Registry

namespace Expression

/-- The expression runs with the standard library, in an environment whose entries hold values. It may
have run before. -/
structure Standard (expression : Expression) (workspace : Workspace) : Prop where
  registry : workspace.registry.freeze = Registry.standard.freeze
  faithful : expression.Faithful Registry.standard.freeze
  constant : workspace.environment.Constant

def variableNames (expression : Expression) : List String :=
  Registry.standard.freeze.variableNames expression.source

variable {left right : Expression} {first second : Workspace}

/-- Two evaluations of one text end alike if the variables of the text hold the same values. -/
theorem Standard.evaluate_confined (hleft : left.Standard first) (hright : right.Standard second)
    (hsource : left.source = right.source) (hsettings : left.settings = right.settings)
    (hstored : ∀ ⦃name⦄, name ∈ left.variableNames →
      first.environment.stored name = second.environment.stored name) :
    Ends (Value.Within left.variableNames)
      (fun failure => Registry.standard.freeze.PlacedIn left.source failure ∨
        left.settings.machine.frames.isSome = true ∧ failure = .of .nestedTooDeeply)
      (Reached left.variableNames left.variableNames first.environment second.environment)
      (left.evaluate first).outcome (right.evaluate second).outcome := by
  have hfirst := hleft.faithful
  have hsecond := hright.faithful
  rw [← hleft.registry] at hfirst
  rw [← hright.registry] at hsecond
  obtain ⟨⟨forces, houtcome⟩, -⟩ := evaluate_outcome hfirst
  obtain ⟨⟨counts, hother⟩, -⟩ := evaluate_outcome hsecond
  rw [houtcome, hother, hleft.registry, hright.registry, ← hsource, ← hsettings]
  have hmatches : State.Matches left.variableNames ⟨first.environment, first.memory, forces, []⟩
      ⟨second.environment, second.memory, counts, []⟩ :=
    ⟨hleft.constant, hright.constant, hstored, rfl⟩
  exact Registry.outcomeOf_confined Registry.standard_confined left.settings left.source hmatches

variable {expression : Expression} {workspace : Workspace}

/-- An expression that has run may run again. -/
theorem Standard.evaluate (h : expression.Standard workspace) :
    (expression.evaluate workspace).expression.Standard (expression.evaluate workspace).workspace where
  registry := (expression.registry_evaluate workspace).trans h.registry
  faithful := by
    have hfaithful := h.faithful
    rw [← h.registry] at hfaithful ⊢
    exact (evaluate_outcome hfaithful).2
  constant := (h.evaluate_confined h rfl rfl fun _ _ => rfl).reaches.matched.left

/-- An evaluation ends with a value, with a failure at a place of the text (the start, if the text has
no tokens), or at the limit on nesting, where there is one. -/
theorem value_or_placed_failure (h : expression.Standard workspace) :
    (∃ value, (expression.evaluate workspace).result = .ok value) ∨
      (∃ cause offset, (expression.evaluate workspace).result = .error (.at cause offset) ∧
        (tokenize Registry.standard.freeze expression.source = .ok [] → offset = 0) ∧
        (tokenize Registry.standard.freeze expression.source ≠ .ok [] →
          offset < expression.source.length)) ∨
      expression.settings.machine.frames.isSome = true ∧
        (expression.evaluate workspace).result = .error (.of .nestedTooDeeply) := by
  have hyields := (h.evaluate_confined h rfl rfl fun _ _ => rfl).yields
  change Yields _ _ (expression.evaluate workspace).result at hyields
  cases hresult : (expression.evaluate workspace).result with
  | ok value => exact .inl ⟨value, rfl⟩
  | error failure =>
    rw [hresult] at hyields
    obtain ⟨cause, offset, rfl, hoffset⟩ | ⟨hdepth, rfl⟩ := hyields.of_error
    · exact .inr (.inl ⟨cause, offset, rfl, hoffset⟩)
    · exact .inr (.inr ⟨hdepth, rfl⟩)

def quotient : Expression := { source := "1 / x", settings := { context := ⟨34, .halfEven⟩ } }

theorem quotient_fails_in_text :
    ∃ cause offset, (quotient.evaluate ⟨.standard, .empty, .empty⟩).result = .error (.at cause offset) ∧
      offset < quotient.source.length := by
  have hstandard : quotient.Standard ⟨.standard, .empty, .empty⟩ :=
    ⟨rfl, faithful_new _ _ _, Environment.constant_empty⟩
  have hfails : (quotient.evaluate ⟨.standard, .empty, .empty⟩).result.isOk = false := by decide +kernel
  have htokens : quotient.variableNames = ["x"] := by decide +kernel
  obtain ⟨value, hvalue⟩ | ⟨cause, offset, hresult, -, hoffset⟩ | ⟨hdepth, -⟩ :=
    value_or_placed_failure hstandard
  · rw [hvalue] at hfails
    cases hfails
  · refine ⟨cause, offset, hresult, hoffset fun hempty => ?_⟩
    rw [variableNames, Registry.variableNames, hempty] at htokens
    cases htokens
  · cases hdepth

/-- An evaluation, whether it fails or not, changes no entry under another name than those of the
variables in the text, and adds no other name. -/
theorem changes_variables_only (h : expression.Standard workspace) :
    (∀ name, name ∉ expression.variableNames →
      (expression.evaluate workspace).workspace.environment.cell? name =
        workspace.environment.cell? name) ∧
      ∀ name ∈ (expression.evaluate workspace).workspace.environment.names,
        name ∈ workspace.environment.names ∨ name ∈ expression.variableNames := by
  have hreached := (h.evaluate_confined h rfl rfl fun _ _ => rfl).reaches
  have hcells := hreached.left
  refine ⟨fun name hname => hcells hname, fun name hname => ?_⟩
  by_cases hvariable : name ∈ expression.variableNames
  · exact .inr hvariable
  · have hcell := hcells hvariable
    rw [Environment.mem_names_iff] at hname
    refine .inl (Environment.mem_names_iff.mpr ?_)
    rw [← hcell]
    exact hname

def itemCount : Expression :=
  { source := "map(x = x + 1, list(3, 4))", settings := { context := ⟨34, .halfEven⟩ } }

theorem itemCount_restores_item :
    ∃ workspace : Workspace, workspace.environment.cell? "_" ≠ none ∧
      (itemCount.evaluate workspace).workspace.environment.cell? "_" =
        workspace.environment.cell? "_" := by
  refine ⟨⟨.standard, Environment.empty.bind "_" (.ofNat 7), .empty⟩, by simp [Environment.bind], ?_⟩
  have hstandard : itemCount.Standard ⟨.standard, Environment.empty.bind "_" (.ofNat 7), .empty⟩ :=
    ⟨rfl, faithful_new _ _ _, Environment.constant_empty.bind _ _⟩
  exact (changes_variables_only hstandard).1 "_" (by decide +kernel)

def increment : Expression := { source := "x = x + 1", settings := { context := ⟨34, .halfEven⟩ } }

end Expression

end Formula
