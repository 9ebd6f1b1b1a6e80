import Formula.Proofs.Expression.Restriction
import Formula.Proofs.Library.Numbers
import Formula.Proofs.Registry.Closing
import Formula.Proofs.Tree.Confined
import Formula.Proofs.Tree.Gives

/-! # Evaluations stay within their context

With the standard library, and without its functions that count, evaluating a text in an environment of
numbers that fit the context gives and leaves numbers that fit. Rounding to a whole number is the one
operation that may leave the range.
-/
namespace Formula

variable {settings : Settings} {context : Context} {source : String} {good : Decimal → Prop}

namespace Literal

/-- The numbers of a text are rounded where they are read. -/
theorem numbers_value? (hprecision : 0 < context.precision) {token : Token} {value : Value}
    (h : value? context token = .ok value) : value.Numbers context.Fits := by
  obtain ⟨number, rounded, hrounded, rfl⟩ | ⟨object, rfl⟩ | rfl := value?_inversion h
  · exact Context.rounded_round hprecision number rounded hrounded
  · trivial
  · trivial

end Literal

namespace Registry

variable {registry : Registry} {names : List String}

theorem treeOf_gives {fine : Value → Prop} (hgives : (registry.without names).Gives settings fine)
    (hliterals : ∀ ⦃token value⦄, Literal.value? settings.context token = .ok value → fine value)
    (h : ∀ name ∈ registry.functionNames source, name ∉ names) {tree : Tree}
    (htree : registry.treeOf settings.context source = .ok tree) : tree.root.Gives settings fine := by
  obtain ⟨rpn, hbuilt⟩ := treeOf_without h htree
  exact Tree.ofRpn_gives hgives hliterals hbuilt

/-- A text that cannot be read leaves everything as it is. -/
theorem outcomeOf_leaves {kept : Environment → Prop} {fine : Value → Prop}
    (hinvariant : Invariant kept fine)
    (hgives : ∀ tree, registry.treeOf settings.context source = .ok tree → tree.root.Gives settings fine) :
    Forces kept fine (registry.outcomeOf settings source) := by
  intro state hstate
  unfold outcomeOf
  cases htree : registry.treeOf settings.context source with
  | error failure => exact .error hstate
  | ok tree => exact tree.evaluate_leaves settings hinvariant (hgives tree htree) hstate

theorem standard_gives (hprecision : 0 < settings.context.precision)
    (hfits : ∀ d, settings.context.Fits d → good d) (hcounting : Library.countingNames ⊆ names)
    (hwhole : ∀ name ∈ Library.wholeNames, name ∉ names → ∀ d, good d → good d.floor ∧ good d.ceiling) :
    (standard.freeze.without names).Gives settings (Value.Numbers good) where
  operators surface op hop := by
    rw [operator?_without] at hop
    exact Library.gives_operators hprecision hfits op (mem_of_operator?_standard hop).2
  functions name f hf := by
    rw [function?_without] at hf
    split at hf
    next => cases hf
    next hname =>
      obtain ⟨other, hmem, heq⟩ := List.mem_map.mp (Table.mem_of_get? hf)
      obtain ⟨hkey, rfl⟩ := Prod.mk.inj heq
      rw [← hkey] at hname
      exact Library.gives_functions hprecision hfits other hmem (fun h => hname (hcounting h))
        fun h => hwhole other.name h hname

/-- The standard constants are numbers, which are rounded, and null. -/
theorem numbers_seedValue_standard (hprecision : 0 < context.precision) :
    ∀ constant ∈ standard.constants.entries, ∀ value,
      seedValue context constant.2 = .ok value → value.Numbers context.Fits := by
  have hnumber (amount : Decimal) : ∀ value, seedValue context (.ofDecimal amount) = .ok value →
      value.Numbers context.Fits := by
    intro value hvalue
    have hrounded := Context.rounded_plus hprecision amount
    unfold seedValue Value.ofDecimal at hvalue
    dsimp only at hvalue
    cases hplus : context.plus amount with
    | error signal =>
      rw [hplus] at hvalue
      cases hvalue
    | ok result =>
      rw [hplus] at hvalue
      obtain rfl := Except.ok.inj hvalue
      exact hrounded result hplus
  have hnull : ∀ value, seedValue context (.null none) = .ok value → value.Numbers context.Fits := by
    intro value hvalue
    obtain rfl := Except.ok.inj hvalue
    trivial
  simp only [standard, Library.constants, List.forall_mem_cons]
  exact ⟨hnumber _, hnumber _, hnumber _, hnumber _, hnull, List.forall_mem_nil _⟩

end Registry

namespace Expression

structure Evaluated.Numbers (good : Decimal → Prop) (evaluated : Evaluated) : Prop where
  result : ∀ value, evaluated.result = .ok value → value.Numbers good
  environment : evaluated.workspace.environment.Numbers good

variable {expression : Expression} {workspace seeded : Workspace}

/-- Making an expression adds constants that are rounded. -/
theorem numbers_make (h : make source settings workspace = .ok (expression, seeded))
    (hregistry : workspace.registry.freeze = Registry.standard.freeze)
    (hprecision : 0 < settings.context.precision)
    (henvironment : workspace.environment.Numbers settings.context.Fits) :
    seeded.environment.Numbers settings.context.Fits := by
  obtain ⟨environment, hseed, -, rfl⟩ := make_inversion h
  rw [Registry.constants_eq_of_freeze hregistry] at hseed
  have hconstants := Registry.numbers_seedValue_standard hprecision
  exact Environment.seed_keeps
    (fun constant hconstant value hvalue env henv =>
      henv.bind constant.1 (hconstants constant hconstant value hvalue)) henvironment hseed

def Gives (expression : Expression) (good : Decimal → Prop) : Prop :=
  ∀ tree, Registry.standard.freeze.treeOf expression.settings.context expression.source = .ok tree →
    tree.root.Gives expression.settings (Value.Numbers good)

theorem gives_numbers {names : List String} (hprecision : 0 < expression.settings.context.precision)
    (hfits : ∀ d, expression.settings.context.Fits d → good d)
    (hcounting : Library.countingNames ⊆ names)
    (hwhole : ∀ name ∈ Library.wholeNames, name ∉ names → ∀ d, good d → good d.floor ∧ good d.ceiling)
    (hcalls : ∀ name ∈ Registry.standard.freeze.functionNames expression.source, name ∉ names) :
    expression.Gives good := by
  intro tree htree
  have hliterals : ∀ ⦃token value⦄,
      Literal.value? expression.settings.context token = .ok value → value.Numbers good :=
    fun _ value h => Value.Numbers.imp hfits value (Literal.numbers_value? hprecision h)
  have hgives := Registry.standard_gives hprecision hfits hcounting hwhole
  exact Registry.treeOf_gives hgives hliterals hcalls htree

theorem numbers_evaluate (hgives : expression.Gives good) (hzero : good .zero)
    (hfaithful : expression.Faithful Registry.standard.freeze)
    (hregistry : workspace.registry.freeze = Registry.standard.freeze)
    (henvironment : workspace.environment.Numbers good) :
    (expression.evaluate workspace).Numbers good := by
  rw [← hregistry] at hfaithful
  obtain ⟨⟨forces, houtcome⟩, -⟩ := evaluate_outcome hfaithful
  rw [hregistry] at houtcome
  have hstart : (State.mk workspace.environment workspace.memory forces []).environment.Numbers good :=
    henvironment
  have hleaves := Registry.outcomeOf_leaves (Environment.invariant_numbers hzero) hgives hstart
  rw [← houtcome] at hleaves
  exact ⟨fun value hvalue => hleaves.of_ok hvalue, hleaves.environment⟩

def functionNames (expression : Expression) : List String :=
  Registry.standard.freeze.functionNames expression.source

def Allows (expression : Expression) (d : Decimal) : Prop :=
  expression.settings.context.Fits d ∨
    expression.settings.context.Spills d ∧ ∃ name ∈ expression.functionNames, name ∈ Library.wholeNames

/-- Without the functions that count, whatever a text binds and gives fits the context again, given
numbers that do, except that `floor` and `ceil` may carry just beyond the range. -/
theorem gives_allowed (hprecision : 0 < expression.settings.context.precision)
    (hcalls : ∀ name ∈ expression.functionNames, name ∉ Library.countingNames) :
    expression.Gives expression.Allows := by
  have hallows : ∀ d, expression.settings.context.Fits d → expression.Allows d := fun d hd => .inl hd
  by_cases hwhole : ∃ name ∈ expression.functionNames, name ∈ Library.wholeNames
  · have htoward : ∀ d, expression.Allows d → ∀ away, expression.Allows (d.towardInteger away) := by
      intro d hd away
      rcases hd with hfits | ⟨hspills, -⟩
      · exact (Context.fits_or_spills_towardInteger hfits away).imp_right fun h => ⟨h, hwhole⟩
      · exact .inr ⟨hspills.towardInteger away, hwhole⟩
    exact gives_numbers hprecision hallows (List.Subset.refl _)
      (fun _ _ _ d hd => ⟨htoward d hd _, htoward d hd _⟩) hcalls
  · -- The two functions may be left out as well.
    have hnone : ∀ name ∈ expression.functionNames,
        name ∉ Library.countingNames ++ Library.wholeNames := by
      intro name hname hmem
      rcases List.mem_append.mp hmem with hcounts | hwholes
      · exact hcalls name hname hcounts
      · exact hwhole ⟨name, hname, hwholes⟩
    have hout : ∀ name ∈ Library.wholeNames, name ∉ Library.countingNames ++ Library.wholeNames →
        ∀ d, expression.Allows d → expression.Allows d.floor ∧ expression.Allows d.ceiling :=
      fun name hname hnot => absurd (List.mem_append_right _ hname) hnot
    exact gives_numbers hprecision hallows (List.subset_append_left _ _) hout hnone

/-- From numbers that fit the context, a text that calls no function that counts gives and leaves numbers
that fit it, except that `floor` and `ceil` may carry just beyond the range. The same holds of whatever it
binds on the way. -/
theorem numbers_stay_in_context (hfaithful : expression.Faithful Registry.standard.freeze)
    (hregistry : workspace.registry.freeze = Registry.standard.freeze)
    (hprecision : 0 < expression.settings.context.precision)
    (hcalls : ∀ name ∈ expression.functionNames, name ∉ Library.countingNames)
    (henvironment : workspace.environment.Numbers expression.settings.context.Fits) :
    (expression.evaluate workspace).Numbers expression.Allows ∧ expression.Gives expression.Allows := by
  have hallows : ∀ d, expression.settings.context.Fits d → expression.Allows d := fun d hd => .inl hd
  have hgives := gives_allowed hprecision hcalls
  have hzero := hallows .zero (Context.fits_digit hprecision (by decide))
  exact ⟨numbers_evaluate hgives hzero hfaithful hregistry (henvironment.imp hallows), hgives⟩

def fourfold : String := "y = map(_ * 4, list(PI, e, ceil(e)))"

theorem fourfold_stays_in_context : ∃ expression seeded,
    make fourfold { context := ⟨3, .halfUp⟩ } ⟨.standard, .empty, .empty⟩ = .ok (expression, seeded) ∧
      (expression.evaluate seeded).result.isOk = true ∧
      (expression.evaluate seeded).Numbers expression.Allows ∧ expression.Gives expression.Allows := by
  have hmade : (make fourfold { context := ⟨3, .halfUp⟩ } ⟨.standard, .empty, .empty⟩).toOption.any
      (fun made => (made.1.evaluate made.2).result.isOk) = true := by
    decide +kernel
  cases hmake : make fourfold { context := ⟨3, .halfUp⟩ } ⟨.standard, .empty, .empty⟩ with
  | error failure =>
    rw [hmake] at hmade
    cases hmade
  | ok made =>
    obtain ⟨expression, seeded⟩ := made
    have hended : (expression.evaluate seeded).result.isOk = true := by
      rw [hmake] at hmade
      exact hmade
    have hfit := numbers_make hmake rfl (by decide) Environment.numbers_empty
    obtain ⟨environment, -, rfl, rfl⟩ := make_inversion hmake
    refine ⟨_, _, rfl, hended, numbers_stay_in_context (faithful_new _ _ _) rfl (by decide) ?_ hfit⟩
    change ∀ name ∈ Registry.standard.freeze.functionNames fourfold, name ∉ Library.countingNames
    decide +kernel

end Expression

def Decimal.nines (k : Nat) : Decimal := ⟨false, tenTo (k + 1) - 1, -1⟩

theorem Decimal.digits_nines (k : Nat) : (nines k).digits = k + 1 := by
  have hmore : tenTo k ≤ tenTo (k + 1) - 1 := by
    have hpositive := tenTo_pos k
    have hsucc := tenTo_succ k
    omega
  exact digitCount_eq hmore (Nat.sub_lt (tenTo_pos _) Nat.one_pos)

theorem Context.fits_nines {k : Nat} (hprecision : k < context.precision) (hk : k ≤ 1000000) :
    context.Fits (.nines k) := by
  have hdigits := Decimal.digits_nines k
  refine ⟨by omega, fun _ => ?_⟩
  unfold Decimal.adjusted
  rw [Decimal.digits] at hdigits
  rw [hdigits]
  simp only [Decimal.nines, maxExponent]
  omega

/-- One unit of the last place is missing to the power of ten. -/
theorem Decimal.ceiling_nines (k : Nat) : (nines k).ceiling = ⟨false, tenTo k, 0⟩ := by
  have hdigits := digits_nines k
  have hpositive := tenTo_pos k
  have hsucc := tenTo_succ k
  have hten : tenTo 1 = 10 := rfl
  have hwhole : (nines k).wholeMagnitude = tenTo k - 1 := by
    unfold wholeMagnitude
    rw [hdigits]
    simp only [nines, hsucc, Int.neg_neg, Int.toNat_one, hten]
    split
    next h => omega
    split
    next h =>
      obtain rfl : k = 0 := by omega
      rfl
    next => omega
  have hfraction : (nines k).isIntegral = false := by
    have hlast : (tenTo k * 10 - 1) % 10 ≠ 0 := by omega
    have hnonzero : tenTo k * 10 - 1 ≠ 0 := by omega
    simp [isIntegral, isZero, nines, hsucc, hten, hlast, hnonzero]
  have haway : (nines k).ceiling = { nines k with
      coefficient := if true && !(nines k).isIntegral then (nines k).wholeMagnitude + 1
        else (nines k).wholeMagnitude, exponent := 0 } := rfl
  rw [haway, hfraction, hwhole, Bool.not_false, Bool.and_self, if_pos rfl, Nat.sub_add_cancel hpositive]
  rfl

namespace Expression

def ceilingOf (context : Context) : Expression := { source := "ceil(x)", settings := { context } }

theorem treeOf_ceilingOf (context : Context) :
    Registry.standard.freeze.treeOf context "ceil(x)" =
      .ok ⟨.call 1 "ceil" (Library.eagerFunction "ceil" 1 Library.ceilingPlan) 0 [.reference 0 "x" 5],
        3⟩ := by
  have hrpn : Registry.standard.freeze.rpnOf "ceil(x)" =
      .ok [⟨.openParen, "(", 4⟩, ⟨.variableName, "x", 5⟩, ⟨.functionName, "ceil", 0⟩] := by
    decide +kernel
  rw [Registry.treeOf, hrpn]
  rfl

theorem result_ceilingOf (context : Context) (d : Decimal) :
    ((ceilingOf context).evaluate
      ⟨.standard, Environment.empty.bind "x" (.ofDecimal d), .empty⟩).result =
        .ok (.ofDecimal d.ceiling) := by
  obtain ⟨⟨forces, houtcome⟩, -⟩ := @evaluate_outcome (ceilingOf context)
    ⟨.standard, Environment.empty.bind "x" (.ofDecimal d), .empty⟩ (faithful_new _ _ _)
  have hresult := congrArg Prod.fst houtcome
  unfold Registry.outcomeOf at hresult
  have htree : Registry.standard.freeze.treeOf (ceilingOf context).settings.context
    (ceilingOf context).source = _ := treeOf_ceilingOf context
  rw [htree] at hresult
  exact hresult

/-- Numbers that fit need not stay so: with digits enough, `ceil` gives the first power of ten above the
range. -/
theorem ceiling_leaves_range : ¬ ∀ (expression : Expression) (workspace : Workspace),
    expression.Faithful Registry.standard.freeze →
    workspace.registry.freeze = Registry.standard.freeze → 0 < expression.settings.context.precision →
    (∀ name ∈ expression.functionNames, name ∉ Library.countingNames) →
    workspace.environment.Numbers expression.settings.context.Fits →
      (expression.evaluate workspace).Numbers expression.settings.context.Fits := by
  intro h
  have hfits : Context.Fits ⟨1000001, .halfEven⟩ (.nines 1000000) :=
    Context.fits_nines (Nat.lt_succ_self _) (Nat.le_refl _)
  have hcalls : ∀ name ∈ (ceilingOf ⟨1000001, .halfEven⟩).functionNames,
      name ∉ Library.countingNames := by
    change ∀ name ∈ Registry.standard.freeze.functionNames "ceil(x)", name ∉ Library.countingNames
    decide +kernel
  have hstart := (@Environment.numbers_empty (Context.Fits ⟨1000001, .halfEven⟩)).bind "x"
    (show (Value.ofDecimal (.nines 1000000)).Numbers _ from hfits)
  have hnumbers := h (ceilingOf ⟨1000001, .halfEven⟩) ⟨.standard, _, .empty⟩ (faithful_new _ _ _) rfl
    (Nat.succ_pos _) hcalls hstart
  have hgiven := hnumbers.result _ (result_ceilingOf _ _)
  have hrange : Context.Fits ⟨1000001, .halfEven⟩ (Decimal.nines 1000000).ceiling := hgiven
  rw [Decimal.ceiling_nines] at hrange
  have hnonzero : (Decimal.mk false (tenTo 1000000) 0).isZero = false := by
    have hpositive := tenTo_pos 1000000
    simp only [Decimal.isZero, beq_eq_false_iff_ne]
    omega
  have hadjusted := hrange.range hnonzero
  simp only [Decimal.adjusted, digitCount_tenTo, Context.maxExponent] at hadjusted
  omega

end Expression

end Formula
