import Formula.Expression
import Formula.Proofs.Decimal.Range
import Formula.Proofs.Evaluation.Retention
import Formula.Proofs.Failure.Place

/-! # Seeding an environment

An environment is seeded with the constants that it lacks. This can fail only where such a constant is
out of range once it is rounded. Afterwards no constant is missing. Setting variables and evaluating take
no name away, so seeding again changes nothing.
-/
namespace Formula

def Value.Fits (context : Context) : Value → Prop
  | .number amount _ _ => ∃ rounded, context.plus amount = .ok rounded
  | _ => True

theorem seedValue_number (context : Context) (amount : Decimal) (unit : Option Denomination)
    (binding : Option String) : seedValue context (.number amount unit binding) =
      ((context.plus amount).map Value.ofDecimal).mapError .numeric := rfl

theorem exists_seedValue_iff {context : Context} {value : Value} :
    (∃ seeded, seedValue context value = .ok seeded) ↔ value.Fits context := by
  cases value with
  | number amount unit binding =>
    rw [seedValue_number]
    unfold Value.Fits
    cases hplus : context.plus amount <;> simp [Except.map, Except.mapError, hplus]
  | null binding | text content binding | list items binding | host object binding =>
    exact iff_of_true ⟨_, rfl⟩ trivial

theorem overflow_of_seedValue {context : Context} {value : Value} {failure : Failure}
    (h : seedValue context value = .error failure) : failure = .numeric .overflow := by
  cases value with
  | number amount unit binding =>
    rw [seedValue_number] at h
    cases hplus : context.plus amount with
    | ok rounded =>
      rw [hplus] at h
      cases h
    | error signal =>
      rw [hplus] at h
      obtain rfl := Context.overflow_of_round hplus
      exact (Except.error.inj h).symm
  | null binding | text content binding | list items binding | host object binding => cases h

namespace Environment

variable {context : Context} {env seeded : Environment} {name other : String}

@[simp] theorem contains_bind_self (env : Environment) (name : String) (value : Value) :
    (env.bind name value).contains name = true := by
  change ((env.bind name value).cell? name).isSome = true
  rw [bind, cell?_define_self]
  rfl

theorem contains_bind_of_ne (h : other ≠ name) (env : Environment) (value : Value) :
    (env.bind name value).contains other = env.contains other :=
  congrArg Option.isSome (cell?_bind_of_ne h env value)

/-- Only the first constant of a name counts; it need not fit where the environment has the name. -/
theorem exists_seed_iff (context : Context) (env : Environment) (constants : List (String × Value)) :
    (∃ seeded, env.seed context constants = .ok seeded) ↔
      ∀ name value, Table.find? name constants = some value → env.contains name = false →
        value.Fits context := by
  induction constants generalizing env with
  | nil => exact iff_of_true ⟨env, rfl⟩ nofun
  | cons constant constants ih =>
    obtain ⟨key, first⟩ := constant
    unfold seed
    by_cases hkey : env.contains key = true
    · rw [if_pos hkey, ih]
      refine forall₂_congr fun name value => ?_
      by_cases hname : key = name
      · subst hname
        simp [hkey]
      · rw [Table.find?, if_neg hname]
    · rw [if_neg hkey]
      constructor
      · rintro ⟨seeded, hseeded⟩ name value hvalue hmissing
        obtain ⟨bound, hbound, hrest⟩ := exists_of_bind_eq_ok hseeded
        by_cases hname : key = name
        · rw [Table.find?, if_pos hname] at hvalue
          obtain rfl := Option.some.inj hvalue
          exact exists_seedValue_iff.mp ⟨bound, hbound⟩
        · rw [Table.find?, if_neg hname] at hvalue
          refine (ih _).mp ⟨seeded, hrest⟩ name value hvalue ?_
          rwa [contains_bind_of_ne (Ne.symm hname)]
      · intro hfits
        obtain ⟨bound, hbound⟩ := exists_seedValue_iff.mpr
          (hfits key first (if_pos rfl) (Bool.eq_false_iff.mpr hkey))
        have hrest : ∃ seeded, (env.bind key bound).seed context constants = .ok seeded := by
          refine (ih _).mpr fun name value hvalue hmissing => ?_
          by_cases hname : key = name
          · subst hname
            simp at hmissing
          · rw [contains_bind_of_ne (Ne.symm hname)] at hmissing
            refine hfits name value ?_ hmissing
            rwa [Table.find?, if_neg hname]
        obtain ⟨seeded, hseeded⟩ := hrest
        exact ⟨seeded, by rw [hbound]; exact hseeded⟩

theorem overflow_of_seed {constants : List (String × Value)} {failure : Failure}
    (h : env.seed context constants = .error failure) : failure = .numeric .overflow := by
  induction constants generalizing env with
  | nil => cases h
  | cons constant constants ih =>
    obtain ⟨name, value⟩ := constant
    unfold seed at h
    split at h
    next => exact ih h
    next =>
      cases hvalue : seedValue context value with
      | ok bound =>
        rw [hvalue] at h
        exact ih h
      | error failure' =>
        rw [hvalue] at h
        obtain rfl := Except.error.inj h
        exact overflow_of_seedValue hvalue

/-- What the constants find is kept, and none of them is missing any more. -/
theorem contains_seed {constants : List (String × Value)} (h : env.seed context constants = .ok seeded) :
    env.StaysIn seeded ∧ ∀ constant ∈ constants, seeded.contains constant.1 = true := by
  induction constants generalizing env with
  | nil =>
    obtain rfl := Except.ok.inj h
    exact ⟨.refl env, nofun⟩
  | cons constant constants ih =>
    obtain ⟨name, value⟩ := constant
    unfold seed at h
    split at h
    next hname =>
      obtain ⟨hstays, hconstants⟩ := ih h
      exact ⟨hstays, List.forall_mem_cons.mpr ⟨hstays hname, hconstants⟩⟩
    next =>
      obtain ⟨bound, -, hrest⟩ := exists_of_bind_eq_ok h
      obtain ⟨hstays, hconstants⟩ := ih hrest
      have hname := hstays (contains_bind_self env name bound)
      exact ⟨(StaysIn.bind env name bound).trans hstays, List.forall_mem_cons.mpr ⟨hname, hconstants⟩⟩

theorem seed_of_contains {constants : List (String × Value)}
    (h : ∀ constant ∈ constants, env.contains constant.1 = true) :
    env.seed context constants = .ok env := by
  induction constants with
  | nil => rfl
  | cons constant constants ih =>
    obtain ⟨hname, hconstants⟩ := List.forall_mem_cons.mp h
    rw [seed, if_pos hname]
    exact ih hconstants

theorem stays_set {datum : Datum} (h : env.set context name datum = .ok seeded) : env.StaysIn seeded := by
  have hbound {result : Except Failure Value} (h : result.map (env.bind name) = .ok seeded) :
      env.StaysIn seeded := by
    cases result with
    | ok value =>
      obtain rfl := Except.ok.inj h
      exact .bind env name value
    | error failure => cases h
  unfold set at h
  split at h
  next entry =>
    obtain rfl := Except.ok.inj h
    exact .define env name entry
  next => exact hbound h
  next => exact hbound h

end Environment

/-- Evaluating takes no name away, whether it fails or not. -/
theorem Expression.stays_evaluate (expression : Expression) (workspace : Workspace) :
    workspace.environment.StaysIn (expression.evaluate workspace).workspace.environment := by
  unfold evaluate
  dsimp only
  generalize expression.built _ = outcome
  obtain ⟨failure | tree, after⟩ := outcome
  · exact .refl _
  · exact tree.evaluate_retains after.settings ⟨workspace.environment, workspace.memory, after.forces, []⟩

end Formula
