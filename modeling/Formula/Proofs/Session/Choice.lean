import Formula.Proofs.Expression.Printed
import Formula.Proofs.Session.Mirror

/-! # Choices run as their parts

A `case` with its conditions and branches runs as calls of `if` do that are nested in each other: the
conditions are run in order until one decides, and then one branch. Conjunction and disjunction run as an `if`
that takes the truth of the second operand. Every form runs as the sources of its operands do one after another,
unless the stack is too small for it.
-/
namespace Formula

namespace Library

def caseFunction : Function := lazyFunction "case" Function.variadicArity caseOf

def ifFunction : Function := lazyFunction "if" 3 choice

def notFunction : Function := eagerFunction "not" 1 negation

def conjunctionOperator : Operator := lazyOperator "&&" 4 false false conjunction

def disjunctionOperator : Operator := lazyOperator "||" 3 false false disjunction

theorem operator?_conjunction : Registry.standard.freeze.operator? "&&" = some conjunctionOperator := rfl

theorem operator?_disjunction : Registry.standard.freeze.operator? "||" = some disjunctionOperator := rfl

end Library

structure Registry.Chooses (registry : Registry) : Prop where
  cases : ∃ f, registry.function? "case" = some f ∧
    ∀ (pairs : List (Operand × Operand)) (default : Operand), pairs ≠ [] →
      f.behaviour.Performs (alternating pairs default) (Operand.chosen pairs default)
  conditional : ∃ f, registry.function? "if" = some f ∧ ∀ condition branch default : Operand,
    f.behaviour.Performs [condition, branch, default] (Operand.chosen [(condition, branch)] default)
  conjunction : ∃ op, registry.operator? "&&" = some op ∧
    ∀ first second : Operand, op.behaviour.Performs [first, second] (Operand.asks true first second)
  disjunction : ∃ op, registry.operator? "||" = some op ∧
    ∀ first second : Operand, op.behaviour.Performs [first, second] (Operand.asks false first second)
  negation : ∃ f, registry.function? "not" = some f ∧ ∀ operand : Operand,
    f.behaviour.Performs [operand] operand.negated

theorem Registry.standard_chooses : Registry.standard.freeze.Chooses where
  cases := ⟨Library.caseFunction, rfl, fun _ default hpairs => Library.performs_caseOf hpairs default⟩
  conditional := ⟨Library.ifFunction, rfl, Library.performs_choice⟩
  conjunction := ⟨Library.conjunctionOperator, rfl, Library.performs_conjunction⟩
  disjunction := ⟨Library.disjunctionOperator, rfl, Library.performs_disjunction⟩
  negation := ⟨Library.notFunction, rfl, Library.performs_negation⟩

def caseText (pairs : List (String × String)) (default : String) : String :=
  callText "case" ((alternating pairs default).map enclosedText)

def nestedIfText : List (String × String) → String → String
  | [], default => enclosedText default
  | (condition, branch) :: pairs, default =>
    callText "if" [enclosedText condition, enclosedText branch, nestedIfText pairs default]

def truthText (source : String) : String := callText "not" [callText "not" [enclosedText source]]

namespace Node

def caseOf (pairs : List (Node × Node)) (default : Node) : Node :=
  .call 0 "case" Library.caseFunction 0 (alternating pairs default)

def conditional (condition branch default : Node) : Node :=
  .call 0 "if" Library.ifFunction 0 [condition, branch, default]

def nestedIf : List (Node × Node) → Node → Node
  | [], default => default
  | (condition, branch) :: pairs, default => conditional condition branch (nestedIf pairs default)

def negation (node : Node) : Node := .call 0 "not" Library.notFunction 0 [node]

def falsehood : Node := .constant 0 "0" (.ofBool false)

def truth : Node := .constant 0 "1" (.ofBool true)

end Node

namespace Session

/-- Runs the conditions in order until one fails or is true, and then the branch of the one that is true. If
none is true, runs the default. -/
def runChosen : List (String × String) → String → Runs
  | [], default => runThen default fun _ => runNothing
  | (condition, branch) :: pairs, default =>
    runThen condition fun value =>
      if value.truth then runThen branch fun _ => runNothing else runChosen pairs default

/-- Runs the first source, and the second if the first has a value with the truth that is asked for. -/
def runAsked (wanted : Bool) (first second : String) : Runs :=
  runThen first fun value =>
    if value.truth = wanted then runThen second fun _ => runNothing else runNothing

variable {limited : Prop} {settings : Settings} {context : Context} {session : Session}
  {environment : Environment} {source first second : String} {pairs : List (String × String)}
  {roots : List (Node × Node)} {default condition branch left right root : Node}

section Forms

variable {room : Option Nat} {finish : Value → Value} {found : Value} {runs : Runs}

abbrev PairsRoot (context : Context) (pairs : List (String × String)) (roots : List (Node × Node)) : Prop :=
  List.Forall₂ (fun sources roots => Roots context sources.1 roots.1 ∧ Roots context sources.2 roots.2) pairs
    roots

/-- The roots as operands run like their sources. -/
theorem PairsRoot.runsAlike (hpairs : PairsRoot settings.context pairs roots) :
    List.Forall₂ (fun sources operands => RunsAlike limited settings operands.1 sources.1 ∧
        RunsAlike limited settings operands.2 sources.2) pairs
      (roots.map (Prod.map (Node.operand settings) (Node.operand settings))) := by
  induction hpairs with
  | nil => exact .nil
  | cons hpair _ ih => exact .cons ⟨hpair.1.runsAlike, hpair.2.runsAlike⟩ ih

/-- Conditions and branches that run like sources are chosen from as the sources are. -/
theorem mirrors_chosen {operands : List (Operand × Operand)} {default : Operand}
    (hpairs : List.Forall₂ (fun sources operands => RunsAlike limited settings operands.1 sources.1 ∧
      RunsAlike limited settings operands.2 sources.2) pairs operands)
    (hdefault : RunsAlike limited settings default source) (hfits : Fits limited settings room)
    (found : Value) :
    Mirrors limited settings id found (runChosen pairs source) (Operand.chosen operands default room) := by
  induction hpairs generalizing found with
  | nil => exact .force hdefault hfits found
  | cons hpair _ ih =>
    refine .thenDoes hpair.1 hfits.inside (fun found => ?_) found
    exact .ite (fun _ => .force hpair.2 hfits found) fun _ => ih found

theorem mirrors_caseOf (hnonempty : roots ≠ []) (hpairs : PairsRoot settings.context pairs roots)
    (hdefault : Roots settings.context source default) (hfits : Fits limited settings room) (found : Value) :
    Mirrors limited settings id found (runChosen pairs source)
      ((Node.caseOf roots default).force settings room) := by
  have hperforms : Library.caseFunction.behaviour.Performs
      ((alternating roots default).map (Node.operand settings))
      (Operand.chosen (roots.map (Prod.map (Node.operand settings) (Node.operand settings)))
        (default.operand settings)) := by
    rw [map_alternating]
    exact Library.performs_caseOf (by simpa using hnonempty) _
  exact .call 0 "case" 0 hfits hperforms fun next hnext =>
    mirrors_chosen hpairs.runsAlike hdefault.runsAlike hnext found

/-- An `if` runs its condition and goes on with one of two operands. -/
theorem mirrors_conditional {after : Value → Runs} (hcondition : Roots settings.context source condition)
    (hfits : Fits limited settings room)
    (hafter : ∀ next, Fits limited settings next →
      ∀ found, Mirrors limited settings finish found (after found)
        (if found.truth then branch.force settings next else default.force settings next)) (found : Value) :
    Mirrors limited settings finish found (runThen source after)
      ((Node.conditional condition branch default).force settings room) :=
  .call 0 "if" 0 hfits (Library.performs_choice _ _ _) fun next hnext =>
    .thenDoes hcondition.runsAlike hnext.inside (hafter next hnext) found

theorem mirrors_nestedIf (hpairs : PairsRoot settings.context pairs roots)
    (hdefault : Roots settings.context source default) (hfits : Fits limited settings room) (found : Value) :
    Mirrors limited settings id found (runChosen pairs source)
      ((Node.nestedIf roots default).force settings room) := by
  -- Each further `if` is evaluated with less room, so the room varies in the induction.
  induction hpairs generalizing room found with
  | nil => exact hdefault.mirrors hfits found
  | cons hpair _ ih =>
    exact mirrors_conditional hpair.1 hfits (fun next hnext found =>
      .ite (fun _ => hpair.2.mirrors hnext found) fun _ => ih hnext found) found

/-- Under a negation the truth of the value is turned round. -/
theorem mirrors_negation (hfits : Fits limited settings room)
    (h : ∀ next, Fits limited settings next →
      Mirrors limited settings finish found runs (root.force settings next)) :
    Mirrors limited settings (fun value => .ofBool !(finish value).truth) found runs
      (root.negation.force settings room) := by
  refine .call 0 "not" 0 hfits (Library.performs_negation _) fun next hnext => ?_
  have hroot : Mirrors limited settings finish found runs ((root.operand settings).force next) := h next hnext
  exact hroot.map fun value => .ofBool !value.truth

def truthOf (value : Value) : Value := .ofBool value.truth

theorem mirrors_truth (h : Roots settings.context source root) (hfits : Fits limited settings room)
    (found : Value) :
    Mirrors limited settings truthOf found (runThen source fun _ => runNothing)
      (root.negation.negation.force settings room) := by
  have hnegated : Mirrors limited settings
      (fun value => .ofBool !(Value.ofBool !value.truth).truth) found (runThen source fun _ => runNothing)
      (root.negation.negation.force settings room) :=
    mirrors_negation hfits fun next hnext =>
      mirrors_negation hnext fun next hnext => h.mirrors hnext found
  have htwice : (fun value : Value => Value.ofBool !(Value.ofBool !value.truth).truth) = truthOf := by
    funext value
    rw [truthOf]
    cases value.truth <;> rfl
  rwa [htwice] at hnegated

/-- An operator that asks for the truth of its operands runs their sources. -/
theorem mirrors_asks {op : Operator} {wanted : Bool} {symbol : String}
    (hop : ∀ first second : Operand, op.behaviour.Performs [first, second] (Operand.asks wanted first second))
    (hleft : Roots settings.context first left) (hright : Roots settings.context second right)
    (hfits : Fits limited settings room) (found : Value) :
    Mirrors limited settings truthOf found (runAsked wanted first second)
      ((Node.operation 0 symbol op 0 [left, right]).force settings room) := by
  refine .operation 0 symbol 0 hfits (hop _ _) fun next hnext => ?_
  refine .thenDoes hleft.runsAlike hnext.inside (fun found => .ite (fun _ => ?_) fun _ => .ending rfl) found
  exact .thenDoes hright.runsAlike hnext.inside (fun _ => .ending rfl) found

theorem mirrors_conjunction (hleft : Roots settings.context first left)
    (hright : Roots settings.context second right) (hfits : Fits limited settings room) (found : Value) :
    Mirrors limited settings truthOf found (runAsked true first second)
      ((Node.conditional left right.negation.negation Node.falsehood).force settings room) :=
  mirrors_conditional hleft hfits (fun next hnext found =>
    .ite (fun _ => mirrors_truth hright hnext found) fun hfalse =>
      mirrors_constant (by rw [truthOf, Bool.eq_false_of_not_eq_true hfalse]) 0 "0") found

theorem mirrors_disjunction (hleft : Roots settings.context first left)
    (hright : Roots settings.context second right) (hfits : Fits limited settings room) (found : Value) :
    Mirrors limited settings truthOf found (runAsked false first second)
      ((Node.conditional left Node.truth right.negation.negation).force settings room) := by
  refine mirrors_conditional hleft hfits (fun next hnext found => ?_) found
  cases htruth : found.truth with
  | true =>
    change Mirrors limited settings truthOf found runNothing (Node.truth.force settings next)
    exact mirrors_constant (by rw [truthOf, htruth]) 0 "1"
  | false => exact mirrors_truth hright hnext found

end Forms

section Texts

theorem spells_caseText (hpairs : PairsRoot context pairs roots) (hdefault : Roots context source default) :
    Registry.standard.freeze.Spells context (caseText pairs source) (Node.caseOf roots default) := by
  have hname : Registry.isName "case" = true := by decide +kernel
  refine .call hname rfl (by nofun) ?_
  induction hpairs with
  | nil => exact .cons hdefault.spells .nil
  | cons hpair _ ih => exact .cons hpair.1.spells (.cons hpair.2.spells ih)

theorem spells_conditional {text further : String}
    (hcondition : Roots context source condition)
    (hbranch : Registry.standard.freeze.Spells context text branch)
    (hdefault : Registry.standard.freeze.Spells context further default) :
    Registry.standard.freeze.Spells context (callText "if" [enclosedText source, text, further])
      (Node.conditional condition branch default) := by
  have hname : Registry.isName "if" = true := by decide +kernel
  exact .call hname rfl (fun _ => rfl) (.cons hcondition.spells (.cons hbranch (.cons hdefault .nil)))

theorem spells_operation {op : Operator} {symbol : String}
    (hop : Registry.standard.freeze.operator? symbol = some op) (hunary : op.unary = false)
    (hchainable : op.chainable = false) (hleft : Roots context first left)
    (hright : Roots context second right) :
    Registry.standard.freeze.Spells context
      (operationText symbol (enclosedText first) (enclosedText second))
      (.operation 0 symbol op 0 [left, right]) :=
  .operation (Registry.keyed_standard.of_operators_eq rfl) hop hunary hchainable hleft.spells hright.spells

theorem spells_nestedIfText (hpairs : PairsRoot context pairs roots)
    (hdefault : Roots context source default) :
    Registry.standard.freeze.Spells context (nestedIfText pairs source) (Node.nestedIf roots default) := by
  induction hpairs with
  | nil => exact hdefault.spells
  | cons hpair _ ih => exact spells_conditional hpair.1 hpair.2.spells ih

theorem spells_truthText (h : Roots context source root) :
    Registry.standard.freeze.Spells context (truthText source) root.negation.negation := by
  have hname : Registry.isName "not" = true := by decide +kernel
  have hnegation {text : String} {node : Node} (h : Registry.standard.freeze.Spells context text node) :
      Registry.standard.freeze.Spells context (callText "not" [text]) node.negation :=
    .call hname rfl (fun _ => rfl) (.cons h .nil)
  exact hnegation (hnegation h.spells)

section Digits

variable {text : String} {number : Decimal} (hprecision : 0 < context.precision)
  (hascii : ∀ c ∈ text.toList, c.toNat < 128)
  (hunsigned : (Decimal.unsignedOf? text.toList).isSome = true) (hnumber : Decimal.ofText? text = some number)
  (hdigits : number.digits = 1) (hexponent : number.exponent = 0)

include hprecision hnumber hdigits hexponent

theorem value?_digit (offset : Nat) :
    Literal.value? context ⟨.number, text, offset⟩ = .ok (.ofDecimal number) := by
  rw [Literal.value?_number hnumber, (Context.admits_digit hprecision hdigits hexponent).round]

include hascii hunsigned

theorem spells_digit :
    Registry.standard.freeze.Spells context text (.constant 0 text (.ofDecimal number)) :=
  .number (tokenize_number hascii hunsigned) (value?_digit hprecision hnumber hdigits hexponent 0)

theorem roots_digit : Roots context text (.constant 0 text (.ofDecimal number)) := by
  refine ⟨2, ?_⟩
  rw [Registry.treeOf_literal (.inl rfl) (tokenize_number hascii hunsigned),
    value?_digit hprecision hnumber hdigits hexponent 0]
  rfl

end Digits

theorem spells_falsehood (hprecision : 0 < context.precision) :
    Registry.standard.freeze.Spells context "0" Node.falsehood :=
  spells_digit hprecision (by simp) (by decide +kernel) (by decide +kernel) rfl rfl

theorem spells_truth (hprecision : 0 < context.precision) :
    Registry.standard.freeze.Spells context "1" Node.truth :=
  spells_digit hprecision (by simp) (by decide +kernel) (by decide +kernel) rfl rfl

theorem exists_pairsRoot (hbuilt : ∀ text ∈ alternating pairs source, ∃ tree,
    Registry.standard.freeze.treeOf context text = .ok tree) :
    ∃ roots default, PairsRoot context pairs roots ∧ Roots context source default := by
  induction pairs with
  | nil =>
    obtain ⟨⟨root, size⟩, htree⟩ := hbuilt source List.mem_cons_self
    exact ⟨[], root, .nil, size, htree⟩
  | cons pair pairs ih =>
    obtain ⟨hcondition, hbranch, hrest⟩ := by simpa [alternating] using hbuilt
    obtain ⟨⟨condition, size⟩, hcondition⟩ := hcondition
    obtain ⟨⟨branch, other⟩, hbranch⟩ := hbranch
    obtain ⟨roots, default, hpairs, hdefault⟩ := ih hrest
    exact ⟨(condition, branch) :: roots, default, .cons ⟨⟨size, hcondition⟩, other, hbranch⟩ hpairs, hdefault⟩

end Texts

section Reported

theorem Starts.exists_runChosen (h : session.Starts settings environment)
    (hpairs : PairsRoot settings.context pairs roots) (hdefault : Roots settings.context source default) :
    ∃ reports ended, runChosen pairs source session = .ok (reports, ended) ∧ reports ≠ [] := by
  have hnothing : ∀ (found : Value) (later : Session), later.Starts settings later.workspace.environment →
      ∃ reports ended, runNothing later = .ok (reports, ended) := fun _ later _ => ⟨[], later, rfl⟩
  induction hpairs generalizing session environment with
  | nil => exact h.exists_runThen hdefault hnothing
  | cons hpair _ ih =>
    refine h.exists_runThen hpair.1 fun found later hlater => ?_
    split
    · obtain ⟨reports, ended, hran, -⟩ := hlater.exists_runThen hpair.2 hnothing
      exact ⟨reports, ended, hran⟩
    · obtain ⟨reports, ended, hran, -⟩ := ih hlater
      exact ⟨reports, ended, hran⟩

theorem Starts.exists_runAsked (h : session.Starts settings environment) (wanted : Bool)
    (hleft : Roots settings.context first left) (hright : Roots settings.context second right) :
    ∃ reports ended, runAsked wanted first second session = .ok (reports, ended) ∧ reports ≠ [] := by
  refine h.exists_runThen hleft fun found later hlater => ?_
  split
  · obtain ⟨reports, ended, hran, -⟩ := hlater.exists_runThen hright fun _ later _ => ⟨[], later, rfl⟩
    exact ⟨reports, ended, hran⟩
  · exact ⟨[], later, rfl⟩

end Reported

/-- Whatever the conditions, branches and operands are, a choice forces conditions once each, in order, up to the
one that decides, and then the one branch that it decides for. So `case` runs as the nested calls of `if` do, a
conjunction as `if(a, not(not(b)), 0)` does, and a disjunction as `if(a, 1, not(not(b)))`: all of them run as the
sources of the operands that are forced do, one after another. Only where the stack is bounded can a form be cut
off instead. Presets would be set again before each of these runs, so there are none. -/
theorem choices_run_alike (hsettings : session.settings = .ok settings)
    (hprecision : 0 < session.config.precision) (hpresets : session.presets = [])
    (hregistry : session.workspace.registry.freeze = Registry.standard.freeze) :
    session.workspace.registry.freeze.Chooses ∧
    (∀ (pairs : List (String × String)) (default : String), pairs ≠ [] →
      (∀ source ∈ alternating pairs default, ∃ tree,
        Registry.standard.freeze.treeOf settings.context source = .ok tree) →
      ∃ reports ended, runChosen pairs default session = .ok (reports, ended) ∧
        session.RunsAs settings.context (caseText pairs default) id reports ended ∧
        session.RunsAs settings.context (nestedIfText pairs default) id reports ended) ∧
    ∀ first second : String, (∀ source ∈ [first, second], ∃ tree,
        Registry.standard.freeze.treeOf settings.context source = .ok tree) →
      (∃ reports ended, runAsked true first second session = .ok (reports, ended) ∧
        session.RunsAs settings.context (operationText "&&" (enclosedText first) (enclosedText second)) truthOf
          reports ended ∧
        session.RunsAs settings.context (callText "if" [enclosedText first, truthText second, "0"]) truthOf
          reports ended) ∧
      ∃ reports ended, runAsked false first second session = .ok (reports, ended) ∧
        session.RunsAs settings.context (operationText "||" (enclosedText first) (enclosedText second)) truthOf
          reports ended ∧
        session.RunsAs settings.context (callText "if" [enclosedText first, "1", truthText second]) truthOf
          reports ended := by
  obtain ⟨environment, hstarts⟩ := exists_starts hsettings hpresets hregistry
  refine ⟨hregistry ▸ Registry.standard_chooses, ?_, ?_⟩
  · intro pairs default hpairs hbuilt
    obtain ⟨roots, last, hroots, hlast⟩ := exists_pairsRoot hbuilt
    obtain ⟨reports, ended, hran, hreports⟩ := hstarts.exists_runChosen hroots hlast
    have hnonempty : roots ≠ [] := by
      rintro rfl
      cases hroots
      exact hpairs rfl
    refine ⟨reports, ended, hran, ?_, ?_⟩
    · exact hstarts.runsAs (spells_caseText hroots hlast)
        (fun _ hfits => mirrors_caseOf hnonempty hroots hlast hfits) hran hreports
    · exact hstarts.runsAs (spells_nestedIfText hroots hlast)
        (fun _ hfits => mirrors_nestedIf hroots hlast hfits) hran hreports
  · intro first second hbuilt
    obtain ⟨⟨⟨left, size⟩, hfirst⟩, ⟨⟨right, other⟩, hsecond⟩⟩ := by simpa using hbuilt
    have hleft : Roots settings.context first left := ⟨size, hfirst⟩
    have hright : Roots settings.context second right := ⟨other, hsecond⟩
    have hcontext : 0 < settings.context.precision := by
      obtain ⟨-, hcontext, -⟩ := settings_inversion hsettings
      rw [hcontext]
      exact hprecision
    obtain ⟨reports, ended, hran, hreports⟩ := hstarts.exists_runAsked true hleft hright
    obtain ⟨more, last, hmore, hnonempty⟩ := hstarts.exists_runAsked false hleft hright
    refine ⟨⟨reports, ended, hran, ?_, ?_⟩, more, last, hmore, ?_, ?_⟩
    · exact hstarts.runsAs (spells_operation Library.operator?_conjunction rfl rfl hleft hright)
        (fun _ hfits => mirrors_asks Library.performs_conjunction hleft hright hfits) hran hreports
    · exact hstarts.runsAs
        (spells_conditional hleft (spells_truthText hright) (spells_falsehood hcontext))
        (fun _ hfits => mirrors_conjunction hleft hright hfits) hran hreports
    · exact hstarts.runsAs (spells_operation Library.operator?_disjunction rfl rfl hleft hright)
        (fun _ hfits => mirrors_asks Library.performs_disjunction hleft hright hfits) hmore hnonempty
    · exact hstarts.runsAs
        (spells_conditional hleft (spells_truth hcontext) (spells_truthText hright))
        (fun _ hfits => mirrors_disjunction hleft hright hfits) hmore hnonempty

def selected : List (String × String) := [("x = 0", "print(1)"), ("print(x + 2)", "x = 3; 1 / (x - 3)")]

theorem selected_run_alike :
    caseText selected "print(4)" =
        "case((x = 0), (print(1)), (print(x + 2)), (x = 3; 1 / (x - 3)), (print(4)))" ∧
      nestedIfText selected "print(4)" =
        "if((x = 0), (print(1)), if((print(x + 2)), (x = 3; 1 / (x - 3)), (print(4))))" ∧
      ∃ reports ended whole after other last,
        runChosen selected "print(4)" opening = .ok (reports, ended) ∧ reports.length = 3 ∧
        opening.run (caseText selected "print(4)") [] = .ok (whole, after) ∧
        opening.run (nestedIfText selected "print(4)") [] = .ok (other, last) ∧
        whole.lines = [⟨.output, "2"⟩, ⟨.log, "3"⟩] ∧ other.lines = whole.lines ∧ last = after ∧
        other.result.mapError Failure.unplaced = whole.result.mapError Failure.unplaced := by
  have hsettings : opening.settings = .ok { context := ⟨34, .halfEven⟩, machine := Config.machine } := rfl
  have hread : ((alternating selected "print(4)").all fun source =>
      (Registry.standard.freeze.treeOf ⟨34, .halfEven⟩ source).isOk) = true := by
    decide +kernel
  have hlength : (runChosen selected "print(4)" opening).toOption.map (fun ran => ran.1.length) = some 3 := by
    decide +kernel
  have hwhole : (opening.run (caseText selected "print(4)") []).toOption.map
      (fun ran => (ran.1.lines, ran.1.failure? == some (.of .nestedTooDeeply))) =
        some ([⟨.output, "2"⟩, ⟨.log, "3"⟩], false) := by
    decide +kernel
  have hother : (opening.run (nestedIfText selected "print(4)") []).toOption.map
      (fun ran => ran.1.failure? == some (.of .nestedTooDeeply)) = some false := by
    decide +kernel
  obtain ⟨-, hchosen, -⟩ := choices_run_alike hsettings (by decide) rfl rfl
  obtain ⟨reports, ended, hran, ⟨tree, htree, hcase⟩, ⟨further, hfurther, hif⟩⟩ :=
    hchosen selected "print(4)" (List.cons_ne_nil _ _) (exists_trees_of_isOk hread)
  obtain ⟨whole, after, hrun, hends⟩ := hcase _ tree htree rfl
  obtain ⟨other, last, hagain, hendsAgain⟩ := hif _ further hfurther rfl
  rw [hran] at hlength
  rw [hrun] at hwhole
  rw [hagain] at hother
  obtain ⟨hlines, huncut⟩ := Prod.mk.inj (Option.some.inj hwhole)
  obtain ⟨⟨final, hfinal, hresult⟩, hafter, hwholeLines⟩ | ⟨-, hdeep⟩ := hends
  · obtain ⟨⟨ultimate, hultimate, hsame⟩, hlast, hotherLines⟩ | ⟨-, hdeep⟩ := hendsAgain
    · obtain rfl := Option.mem_unique hfinal hultimate
      exact ⟨by decide, by decide, reports, ended, whole, after, other, last, hran,
        Option.some.inj hlength, hrun, hagain, hlines, hotherLines.trans hwholeLines.symm,
        hlast.trans hafter.symm, hsame.trans hresult.symm⟩
    · exact absurd hdeep (Report.result_ne_of_failure? (Option.some.inj hother))
  · exact absurd hdeep (Report.result_ne_of_failure? huncut)

def zeroRoots (count : Nat) : List (Node × Node) := List.replicate count (Node.falsehood, Node.falsehood)

/-- With zeros for conditions, all of them are forced and then the default. -/
theorem caseOf_zeroRoots {room next : Option Nat} (hroom : deeper room = some next) (count : Nat)
    (state : State) :
    ((Node.caseOf (zeroRoots (count + 1)) Node.truth).force settings room state).1 = .ok (.ofBool true) := by
  let operand := Node.operand settings
  have hgives : ∀ (count : Nat) (state : State), ∃ after,
      Operand.chosen ((zeroRoots count).map (Prod.map operand operand)) (operand Node.truth) next state =
        (.ok (.ofBool true), after) := by
    intro count
    induction count with
    | zero =>
      intro state
      obtain ⟨after, hforced, -⟩ := Node.gives_constant settings next 0 "1" (.ofBool true) state
      exact ⟨after, hforced⟩
    | succ count ih =>
      intro state
      obtain ⟨middle, hforced, -⟩ := Node.gives_constant settings (inside next) 0 "0" (.ofBool false) state
      obtain ⟨after, hafter⟩ := ih middle
      exact ⟨after, (Operand.chosen_of_false hforced rfl).trans hafter⟩
  have hperforms : Library.caseFunction.behaviour.Performs
      ((alternating (zeroRoots (count + 1)) Node.truth).map operand)
      (Operand.chosen ((zeroRoots (count + 1)).map (Prod.map operand operand)) (operand Node.truth)) := by
    rw [map_alternating]
    exact Library.performs_caseOf (by simp [zeroRoots]) _
  rw [Node.caseOf, Node.force_call hroom, operandsOf_eq_map, hperforms]
  obtain ⟨after, hchosen⟩ := hgives (count + 1) (state.enter settings 0 Library.caseFunction.name _)
  rw [hchosen]
  rfl

/-- With zeros for conditions, every `if` takes a frame more, and without room for them all the evaluation is
cut off. -/
theorem nestedIf_zeroRoots_cut (count bound : Nat) (hbound : bound < count) (state : State) :
    ((Node.nestedIf (zeroRoots count) Node.truth).force settings (some bound) state).1 = .error .tooDeep := by
  induction count generalizing bound state with
  | zero => cases hbound
  | succ count ih =>
    cases bound with
    | zero => rfl
    | succ bound =>
      let operand := Node.operand settings
      let rest := Node.nestedIf (zeroRoots count) Node.truth
      have hperforms : Library.ifFunction.behaviour.Performs
          ([Node.falsehood, Node.falsehood, rest].map operand)
          (Operand.chosen [(operand Node.falsehood, operand Node.falsehood)] (operand rest)) :=
        Library.performs_choice _ _ _
      have hnode : Node.nestedIf (zeroRoots (count + 1)) Node.truth =
          .call 0 "if" Library.ifFunction 0 [Node.falsehood, Node.falsehood, rest] := rfl
      have hroom : deeper (some (bound + 1)) = some (some bound) := rfl
      rw [hnode, Node.force_call hroom, operandsOf_eq_map, hperforms]
      obtain ⟨middle, hforced, -⟩ := Node.gives_constant settings (inside (some bound)) 0 "0" (.ofBool false)
        (state.enter settings 0 Library.ifFunction.name 3)
      have hchosen : Operand.chosen [(operand Node.falsehood, operand Node.falsehood)] (operand rest)
          (some bound) (state.enter settings 0 Library.ifFunction.name 3) =
            rest.force settings (some bound) middle :=
        Operand.chosen_of_false hforced rfl
      exact (congrArg (fun outcome => (Outcome.located 0 outcome).1) hchosen).trans
        (Outcome.located_cut (ih bound (Nat.lt_of_succ_lt_succ hbound) middle) 0)

/-- With so many zeros for conditions, `case` gives its default, but the calls of `if` need more frames than the
stack has. -/
theorem zeros_cut :
    (∃ report after, opening.run (caseText (List.replicate 3200 ("0", "0")) "1") [] = .ok (report, after) ∧
      report.result = .ok (.ofBool true)) ∧
    ∃ report after, opening.run (nestedIfText (List.replicate 3200 ("0", "0")) "1") [] = .ok (report, after) ∧
      report.result = .error (.of .nestedTooDeeply) := by
  have hsettings : opening.settings = .ok { context := ⟨34, .halfEven⟩, machine := Config.machine } := rfl
  obtain ⟨environment, hstarts⟩ := exists_starts hsettings rfl rfl
  have hprecision : 0 < (⟨34, .halfEven⟩ : Context).precision := by decide
  have hzero : Roots ⟨34, .halfEven⟩ "0" Node.falsehood :=
    roots_digit hprecision (by simp) (by decide +kernel) (by decide +kernel) rfl rfl
  have hone : Roots ⟨34, .halfEven⟩ "1" Node.truth :=
    roots_digit hprecision (by simp) (by decide +kernel) (by decide +kernel) rfl rfl
  have hpairs (count : Nat) :
      PairsRoot ⟨34, .halfEven⟩ (List.replicate count ("0", "0")) (zeroRoots count) := by
    induction count with
    | zero => exact .nil
    | succ count ih => exact .cons ⟨hzero, hzero⟩ ih
  constructor
  · obtain ⟨tree, htree, hroot⟩ := (spells_caseText (hpairs 3200) hone).exists_tree
    obtain ⟨state, outcome, -, -, -, hrun, hechoes⟩ := hstarts.run_like htree hroot False
    have hroom : deeper Config.machine.frames = some (some 999) := rfl
    have hdefault := @caseOf_zeroRoots { context := ⟨34, .halfEven⟩, machine := Config.machine } _ _ hroom 3199
      state
    refine ⟨_, _, hrun, ?_⟩
    generalize (Node.caseOf (zeroRoots 3200) Node.truth).force _ _ state = forced at hechoes hdefault
    cases hechoes with
    | deep hlimited => exact hlimited.elim
    | ok =>
      rw [Report.result_of]
      exact congrArg (Except.mapError Failure.settled) hdefault
    | error => cases hdefault
  · obtain ⟨tree, htree, hroot⟩ := (spells_nestedIfText (hpairs 3200) hone).exists_tree
    obtain ⟨state, outcome, -, -, -, hrun, hechoes⟩ := hstarts.run_like htree hroot False
    have hcut : ((Node.nestedIf (zeroRoots 3200) Node.truth).force
        { context := ⟨34, .halfEven⟩, machine := Config.machine } Config.machine.frames state).1 =
          .error .tooDeep :=
      nestedIf_zeroRoots_cut 3200 Config.frameBound (by decide) state
    refine ⟨_, _, hrun, ?_⟩
    generalize (Node.nestedIf (zeroRoots 3200) Node.truth).force _ _ state = forced at hechoes hcut
    cases hechoes with
    | deep hlimited => exact hlimited.elim
    | ok => cases hcut
    | error hfailure =>
      obtain rfl := Except.error.inj hcut
      rw [Report.result_of, Failure.eq_tooDeep_of_unplaced hfailure]
      rfl

end Session

end Formula
