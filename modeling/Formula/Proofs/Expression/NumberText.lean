import Formula.Proofs.Expression.Reading
import Formula.Proofs.Token.NumberText

/-! # Numbers given as texts

A variable may be set from a text, and a text may be evaluated. Both read the same texts without a sign as
numbers, and both round them alike.
-/
namespace Formula

variable {context : Context} {text : String}

/-- Setting a variable to the text makes it a number, or fails as rounding a number does. -/
def SetsNumber (context : Context) (text : String) : Prop :=
  (∃ number, valueOfText context text = .ok (.ofDecimal number)) ∨
    ∃ signal, valueOfText context text = .error (.numeric signal)

/-- A text that reads as a number stands for it, rounded, unless rounding fails. -/
theorem valueOfText_number {number : Decimal} (h : Decimal.ofText? text = some number) (context : Context) :
    (∃ rounded, context.round number = .ok rounded ∧ valueOfText context text = .ok (.ofDecimal rounded)) ∨
      ∃ signal, context.round number = .error signal ∧
        valueOfText context text = .error (.numeric signal) := by
  unfold valueOfText
  cases hround : context.round number with
  | ok rounded => exact .inl ⟨rounded, rfl, by rw [h]; simp [hround, Except.map, Except.mapError]⟩
  | error signal => exact .inr ⟨signal, rfl, by rw [h]; simp [hround, Except.map, Except.mapError]⟩

theorem setsNumber_iff : SetsNumber context text ↔ (Decimal.ofText? text).isSome = true := by
  cases hnumber : Decimal.ofText? text with
  | some number =>
    obtain ⟨rounded, -, hset⟩ | ⟨signal, -, hset⟩ := valueOfText_number hnumber context
    · exact iff_of_true (.inl ⟨rounded, hset⟩) rfl
    · exact iff_of_true (.inr ⟨signal, hset⟩) rfl
  | none =>
    have hvalue : valueOfText context text =
        .ok (if Text.lower text = "null" then .null none else .text text none) := by
      rw [valueOfText, hnumber]
    refine iff_of_false ?_ nofun
    rw [SetsNumber, hvalue]
    split <;> simp [Value.ofDecimal]

namespace Registry

/-- The tree of a literal is its value. -/
theorem treeOf_literal {registry : Registry} {token : Token} (hkind : token.kind = .number ∨ token.kind = .text)
    (htokens : tokenize registry text = .ok [token]) (context : Context) :
    registry.treeOf context text =
      (Literal.value? context token).map fun value => ⟨.constant 0 token.surface value, 2⟩ := by
  obtain ⟨kind, surface, offset⟩ := token
  have hlisted : Rpn.checked registry [⟨kind, surface, offset⟩] = .ok [⟨kind, surface, offset⟩] := by
    rcases hkind with rfl | rfl <;> rfl
  have hrpn : registry.rpnOf text = .ok [⟨kind, surface, offset⟩] := by
    rw [rpnOf, htokens]
    exact hlisted
  rw [treeOf, hrpn]
  rcases hkind with rfl | rfl
  all_goals
    simp only [bind, Except.bind, Tree.ofRpn, Assembly.steps, Assembly.step]
    cases Literal.value? context _ <;> rfl

theorem outcomeOf_literal {registry : Registry} {token : Token}
    (hkind : token.kind = .number ∨ token.kind = .text) (htokens : tokenize registry text = .ok [token])
    (settings : Settings) (state : State) :
    (registry.outcomeOf settings text state).1 = Literal.value? settings.context token := by
  rw [outcomeOf, treeOf_literal hkind htokens]
  cases Literal.value? settings.context token <;> rfl

end Registry

theorem ofText?_of_unsigned (hsign : ∀ c ∈ text.toList.head?, c ≠ '+' ∧ c ≠ '-') :
    Decimal.ofText? text = Decimal.unsignedOf? text.toList := by
  unfold Decimal.ofText? Decimal.ofChars?
  split
  next heq => simp [heq] at hsign
  next heq => simp [heq] at hsign
  next => rfl

/-- The literal of such a text has the same number, unless rounding fails. -/
theorem Literal.value?_number {number : Decimal} (h : Decimal.ofText? text = some number) (context : Context)
    (offset : Nat) :
    Literal.value? context ⟨.number, text, offset⟩ =
      match context.round number with
      | .ok rounded => .ok (.ofDecimal rounded)
      | .error _ => .error (.at (.malformedLiteral text) offset) := by
  unfold Literal.value? Literal.decimal?
  dsimp only
  rw [h]
  cases hround : context.round number <;> simp [hround, Except.toOption]

/-- An ASCII text without a sign is a single number literal exactly if a variable that is set from it becomes
a number, and these are the texts that the pattern of numbers matches. The variable and the evaluation of
the text then have the same number, or both fail. -/
theorem literal_iff_setsNumber (registry : Registry) (hascii : ∀ c ∈ text.toList, c.toNat < 128)
    (hsign : ∀ c ∈ text.toList.head?, c ≠ '+' ∧ c ≠ '-') :
    ((∃ offset, tokenize registry text = .ok [⟨.number, text, offset⟩]) ↔
        Decimal.numberPattern.accepts text.toList = true) ∧
      (∀ context, SetsNumber context text ↔ Decimal.numberPattern.accepts text.toList = true) ∧
      (Decimal.numberPattern.accepts text.toList = true →
        ∀ (settings : Settings) (environment : Environment) (name : String) (workspace : Workspace),
          (∃ number, environment.set settings.context name (.text text) =
              .ok (environment.bind name (.ofDecimal number)) ∧
            (Expression.evaluate { source := text, settings } workspace).result = .ok (.ofDecimal number)) ∨
          ∃ signal, environment.set settings.context name (.text text) = .error (.numeric signal) ∧
            (Expression.evaluate { source := text, settings } workspace).result =
              .error (.at (.malformedLiteral text) 0)) := by
  have hunsigned : (Decimal.unsignedOf? text.toList).isSome = true ↔
      Decimal.numberPattern.accepts text.toList = true := by
    rw [← Decimal.ofText?_isSome_iff, ofText?_of_unsigned hsign]
  refine ⟨(tokenize_number_iff hascii).trans hunsigned,
    fun context => setsNumber_iff.trans (Decimal.ofText?_isSome_iff text), ?_⟩
  intro haccepted settings environment name workspace
  obtain ⟨read, hnumber⟩ := Option.isSome_iff_exists.mp ((Decimal.ofText?_isSome_iff text).mpr haccepted)
  have htokens : tokenize workspace.registry.freeze text = .ok [⟨.number, text, 0⟩] :=
    tokenize_number hascii (hunsigned.mpr haccepted)
  obtain ⟨state, hresult⟩ := Expression.exists_result_new text settings workspace
  rw [Registry.outcomeOf_literal (.inl rfl) htokens] at hresult
  rw [Literal.value?_number hnumber] at hresult
  obtain ⟨rounded, hround, hset⟩ | ⟨signal, hround, hset⟩ := valueOfText_number hnumber settings.context
  · rw [hround] at hresult
    refine .inl ⟨rounded, ?_, hresult⟩
    rw [Environment.set, hset]
    rfl
  · rw [hround] at hresult
    refine .inr ⟨signal, ?_, hresult⟩
    rw [Environment.set, hset]
    rfl

theorem pointedExponent_read :
    (∃ offset, tokenize .standard "1.e5" = .ok [⟨.number, "1.e5", offset⟩]) ∧
      (∀ context, SetsNumber context "1.e5") ∧
      ∀ (settings : Settings) (environment : Environment) (name : String) (workspace : Workspace),
        (∃ number, environment.set settings.context name (.text "1.e5") =
            .ok (environment.bind name (.ofDecimal number)) ∧
          (Expression.evaluate { source := "1.e5", settings } workspace).result = .ok (.ofDecimal number)) ∨
        ∃ signal, environment.set settings.context name (.text "1.e5") = .error (.numeric signal) ∧
          (Expression.evaluate { source := "1.e5", settings } workspace).result =
            .error (.at (.malformedLiteral "1.e5") 0) := by
  have haccepted : Decimal.numberPattern.accepts "1.e5".toList = true := by decide +kernel
  have hascii : ∀ c ∈ "1.e5".toList, c.toNat < 128 := by simp
  have hsign : ∀ c ∈ "1.e5".toList.head?, c ≠ '+' ∧ c ≠ '-' := by simp
  obtain ⟨hliteral, hset, hvalue⟩ := literal_iff_setsNumber .standard hascii hsign
  exact ⟨hliteral.mpr haccepted, fun context => (hset context).mpr haccepted, hvalue haccepted⟩

end Formula
