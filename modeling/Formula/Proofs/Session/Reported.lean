import Formula.Library.Standard
import Formula.Session
import Formula.Proofs.Expression.Reading
import Formula.Proofs.Expression.Seeding

/-! # Which runs are reported

A run makes its context and seeds the constants before anything that it reports. So a run is reported
exactly if its precision fits a context and every constant that the environment lacks stays in range when
it is rounded. Whatever happens after that ends in a report.
-/
namespace Formula

namespace Config

def asked (config : Config) : Context := ⟨config.precision, config.rounding⟩

variable {config : Config} {context : Context}

theorem context_of_lt (h : config.precision < precisionBound) : config.context = .ok config.asked := by
  have hbounds : precisionBound ≤ wordBound := by decide
  unfold Config.context
  rw [if_neg (by omega), if_neg (by omega)]
  rfl

theorem context_inversion (h : config.context = .ok context) :
    config.precision < precisionBound ∧ context = config.asked := by
  unfold Config.context at h
  split at h
  · cases h
  split at h
  · cases h
  next hprecision => exact ⟨by omega, (Except.ok.inj h).symm⟩

end Config

namespace Expression

/-- An expression can be made where the environment can be seeded. -/
theorem exists_make_iff {source : String} {settings : Settings} {workspace : Workspace} :
    (∃ made, make source settings workspace = .ok made) ↔
      ∃ seeded, workspace.environment.seed settings.context workspace.registry.constants.entries =
        .ok seeded := by
  constructor
  · rintro ⟨⟨expression, after⟩, h⟩
    obtain ⟨environment, hseed, -⟩ := make_inversion h
    exact ⟨environment, hseed⟩
  · rintro ⟨seeded, hseed⟩
    rw [make, hseed]
    exact ⟨_, rfl⟩

end Expression

/-- The standard constants fit every context. -/
theorem Library.constants_fit (context : Context) :
    ∀ constant ∈ constants, constant.2.Fits context := by
  have hfits {d : Decimal}
      (hrange : d.exponent + d.digits + 2 * Nat.log2 (d.coefficient + 1) + 3 ≤ Context.maxExponent) :
      (Value.ofDecimal d).Fits context := by
    change ∃ rounded, context.plus d = .ok rounded
    unfold Context.plus
    split
    · exact context.exists_round (d := d.magnitude) hrange
    · exact context.exists_round hrange
  have hnull : (Value.null none).Fits context := trivial
  simp only [constants, List.forall_mem_cons, List.not_mem_nil, false_implies, implies_true, and_true]
  refine ⟨hfits ?_, hfits ?_, hfits ?_, hfits ?_, hnull⟩ <;> decide +kernel

namespace Session

variable {session : Session} {settings : Settings} {source : String} {assigned : List (String × Datum)}

theorem settings_inversion (h : session.settings = .ok settings) :
    session.config.precision < Config.precisionBound ∧ settings.context = session.config.asked ∧
      settings.machine = session.machine := by
  obtain ⟨given, hgiven, hsettings⟩ := exists_of_bind_eq_ok h
  obtain ⟨context, hcontext, hmade⟩ := exists_of_bind_eq_ok hgiven
  obtain rfl := Except.ok.inj hsettings
  obtain rfl := Except.ok.inj hmade
  obtain ⟨hprecision, hasked⟩ := Config.context_inversion hcontext
  exact ⟨hprecision, hasked, rfl⟩

theorem exists_settings (h : session.config.precision < Config.precisionBound) :
    ∃ settings, session.settings = .ok settings ∧ settings.context = session.config.asked := by
  rw [Session.settings, Config.settings, Config.context_of_lt h]
  exact ⟨_, rfl, rfl⟩

/-- Once there are settings and an expression, a run ends in a report. -/
theorem exists_run_iff : (∃ report after, session.run source assigned = .ok (report, after)) ↔
    ∃ settings, session.settings = .ok settings ∧
      ∃ made, Expression.make source settings session.workspace = .ok made := by
  constructor
  · rintro ⟨report, after, h⟩
    obtain ⟨settings, hsettings, h⟩ := exists_of_bind_eq_ok h
    obtain ⟨made, hmade, -⟩ := exists_of_bind_eq_ok h
    exact ⟨settings, hsettings, made, hmade⟩
  · rintro ⟨settings, hsettings, ⟨expression, workspace⟩, hmade⟩
    unfold run
    simp only [hsettings, hmade, bind, Except.bind]
    split
    · exact ⟨_, _, rfl⟩
    · exact ⟨_, _, rfl⟩

/-- Every missing constant of the registry fits the context that the session asks for. -/
def ConstantsFit (session : Session) : Prop :=
  ∀ name value, session.workspace.registry.constants.get? name = some value →
    session.workspace.environment.contains name = false → value.Fits session.config.asked

theorem cause_of_run {failure : Failure} (h : session.run source assigned = .error failure) :
    session.config.context = .error failure ∨ failure = .numeric .overflow := by
  cases hcontext : session.config.context with
  | error cause =>
    have hsettings : session.settings = .error cause := by
      rw [Session.settings, Config.settings, hcontext]
      rfl
    unfold run at h
    simp only [hsettings, bind, Except.bind] at h
    exact .inl (congrArg _ (Except.error.inj h))
  | ok context =>
    obtain ⟨hprecision, -⟩ := Config.context_inversion hcontext
    obtain ⟨settings, hsettings, -⟩ := exists_settings hprecision
    cases hseed : session.workspace.environment.seed settings.context
        session.workspace.registry.constants.entries with
    | error cause =>
      have hmade : Expression.make source settings session.workspace = .error cause := by
        rw [Expression.make, hseed]
        rfl
      unfold run at h
      simp only [hsettings, hmade, bind, Except.bind] at h
      obtain rfl := Except.error.inj h
      exact .inr (Environment.overflow_of_seed hseed)
    | ok seeded =>
      obtain ⟨made, hmade⟩ := Expression.exists_make_iff.mpr ⟨seeded, hseed⟩
      obtain ⟨report, after, hrun⟩ := exists_run_iff.mpr ⟨settings, hsettings, made, hmade⟩
      rw [hrun] at h
      cases h

theorem exists_run_iff_fit : (∃ report after, session.run source assigned = .ok (report, after)) ↔
    session.config.precision < Config.precisionBound ∧ session.ConstantsFit := by
  rw [exists_run_iff]
  constructor
  · rintro ⟨settings, hsettings, hmade⟩
    obtain ⟨hprecision, hcontext, -⟩ := settings_inversion hsettings
    rw [Expression.exists_make_iff, Environment.exists_seed_iff, hcontext] at hmade
    exact ⟨hprecision, hmade⟩
  · rintro ⟨hprecision, hfit⟩
    obtain ⟨settings, hsettings, hcontext⟩ := exists_settings hprecision
    refine ⟨settings, hsettings, ?_⟩
    rw [Expression.exists_make_iff, Environment.exists_seed_iff, hcontext]
    exact hfit

/-- The standard constants fit every context. -/
theorem constantsFit_of_standard
    (h : session.workspace.registry.constants = Registry.standard.constants) :
    session.ConstantsFit := by
  intro name value hvalue _
  rw [h] at hvalue
  exact Library.constants_fit session.config.asked _ (Table.mem_of_get? hvalue)

end Session

end Formula
