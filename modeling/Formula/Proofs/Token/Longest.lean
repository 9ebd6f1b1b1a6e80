import Formula.Proofs.Registry.Symbol

/-! # The longest registered symbol

What an operator takes of a run of symbol characters depends only on which beginnings of the run are
registered: it is the longest of these, or the whole run where none is. Taking it again from what was
taken changes nothing.
-/
namespace Formula

/-- `chars` is the longest registered symbol that `run` begins with, or all of `run` if it begins with
none. -/
def Registry.Takes (registry : Registry) (run chars : List Char) : Prop :=
  (chars ≠ [] ∧ chars <+: run ∧ registry.hasSymbol (String.ofList chars) = true ∧
      ∀ other, other <+: run → registry.hasSymbol (String.ofList other) = true →
        other.length ≤ chars.length) ∨
    (chars = run ∧
      ∀ other, other ≠ [] → other <+: run → registry.hasSymbol (String.ofList other) = false)

namespace Registry

variable {registry next : Registry} {run chars other : List Char}

theorem Takes.isPrefix (h : registry.Takes run chars) : chars <+: run := by
  rcases h with ⟨-, hprefix, -, -⟩ | ⟨rfl, -⟩
  · exact hprefix
  · exact List.prefix_rfl

theorem Takes.eq (h : registry.Takes run chars) (k : registry.Takes run other) : chars = other := by
  rcases h with ⟨hne, hprefix, hsymbol, hlongest⟩ | ⟨rfl, hnone⟩
  · rcases k with ⟨-, kprefix, ksymbol, klongest⟩ | ⟨rfl, knone⟩
    · have hlength : chars.length = other.length := by
        have hle := hlongest other kprefix ksymbol
        have hge := klongest chars hprefix hsymbol
        omega
      exact (List.prefix_of_prefix_length_le hprefix kprefix (Nat.le_of_eq hlength)).eq_of_length hlength
    · simp [knone chars hne hprefix] at hsymbol
  · rcases k with ⟨kne, kprefix, ksymbol, -⟩ | ⟨rfl, -⟩
    · simp [hnone other kne kprefix] at ksymbol
    · rfl

/-- What was taken is taken whole where it stands alone. -/
theorem Takes.whole (h : registry.Takes run chars) : registry.Takes chars chars := by
  rcases h with ⟨hne, -, hsymbol, -⟩ | ⟨rfl, hnone⟩
  · exact .inl ⟨hne, List.prefix_rfl, hsymbol, fun other hother _ => hother.length_le⟩
  · exact .inr ⟨rfl, hnone⟩

/-- Only the beginnings of the run matter. -/
theorem Takes.congr (h : registry.Takes run chars)
    (hsymbols : ∀ other, other <+: run →
      next.hasSymbol (String.ofList other) = registry.hasSymbol (String.ofList other)) :
    next.Takes run chars := by
  rcases h with ⟨hne, hprefix, hsymbol, hlongest⟩ | ⟨hwhole, hnone⟩
  · refine .inl ⟨hne, hprefix, (hsymbols chars hprefix).trans hsymbol, fun other hother hregistered => ?_⟩
    rw [hsymbols other hother] at hregistered
    exact hlongest other hother hregistered
  · refine .inr ⟨hwhole, fun other hother hprefix => ?_⟩
    rw [hsymbols other hprefix]
    exact hnone other hother hprefix

end Registry

namespace Lexeme

variable {registry : Registry} {run : List Char}

/-- No registered symbol is beyond the bound that is searched. -/
theorem length_le_symbolBound {symbol : String} (h : registry.hasSymbol symbol = true) :
    symbol.length ≤ symbolBound registry := by
  simp only [Registry.hasSymbol, Table.contains, Bool.or_eq_true, Option.isSome_iff_exists] at h
  rcases h with ⟨op, hop⟩ | ⟨op, hop⟩
  · exact le_symbolBound hop
  · have hbound := le_symbolBound hop
    rw [String.length_append] at hbound
    omega

/-- The search answers with the greatest registered length, up to its bound. -/
theorem registeredLength_cases (registry : Registry) (run : List Char) (bound : Nat) :
    (∃ length, registeredLength registry run bound = some length ∧ 0 < length ∧ length ≤ bound ∧
      registry.hasSymbol (String.ofList (run.take length)) = true ∧
      ∀ more, length < more → more ≤ bound →
        registry.hasSymbol (String.ofList (run.take more)) = false) ∨
    (registeredLength registry run bound = none ∧
      ∀ length, 0 < length → length ≤ bound →
        registry.hasSymbol (String.ofList (run.take length)) = false) := by
  induction bound with
  | zero => exact .inr ⟨rfl, fun length hpositive hbound => by omega⟩
  | succ bound ih =>
    rw [registeredLength]
    by_cases hsymbol : registry.hasSymbol (String.ofList (run.take (bound + 1))) = true
    · rw [if_pos hsymbol]
      refine .inl ⟨bound + 1, rfl, Nat.succ_pos bound, Nat.le_refl _, hsymbol, fun more hmore hbound => ?_⟩
      omega
    · rw [if_neg hsymbol]
      -- A length up to the bound is the bound itself or was searched before.
      have hlast : ∀ length, length ≤ bound + 1 → length = bound + 1 ∨ length ≤ bound := by
        intro length hlength
        omega
      rcases ih with ⟨length, hfound, hpositive, hbound, htaken, hlongest⟩ | ⟨hnone, hall⟩
      · refine .inl ⟨length, hfound, hpositive, by omega, htaken, fun more hmore hle => ?_⟩
        rcases hlast more hle with rfl | hle
        · exact Bool.eq_false_iff.mpr hsymbol
        · exact hlongest more hmore hle
      · refine .inr ⟨hnone, fun length hpositive hle => ?_⟩
        rcases hlast length hle with rfl | hle
        · exact Bool.eq_false_iff.mpr hsymbol
        · exact hall length hpositive hle

theorem takes_operatorChars (registry : Registry) (run : List Char) :
    registry.Takes run (operatorChars registry run) := by
  have hbounded : ∀ other, other <+: run → registry.hasSymbol (String.ofList other) = true →
      other = run.take other.length ∧ other.length ≤ min run.length (symbolBound registry) := by
    intro other hother hsymbol
    have hsymbolBound := length_le_symbolBound hsymbol
    rw [String.length_ofList] at hsymbolBound
    exact ⟨List.prefix_iff_eq_take.mp hother, Nat.le_min.mpr ⟨hother.length_le, hsymbolBound⟩⟩
  unfold operatorChars
  obtain ⟨length, hfound, hpositive, hbound, htaken, hlongest⟩ | ⟨hnone, hall⟩ :=
    registeredLength_cases registry run (min run.length (symbolBound registry))
  · rw [hfound]
    have hlength : (run.take length).length = length := by
      rw [List.length_take]
      omega
    refine .inl ⟨?_, List.take_prefix _ _, htaken, fun other hother hsymbol => ?_⟩
    · exact List.ne_nil_of_length_pos (by rw [hlength]; exact hpositive)
    · obtain ⟨htake, hle⟩ := hbounded other hother hsymbol
      dsimp only
      rw [hlength]
      apply Nat.le_of_not_lt
      intro hlonger
      have hunregistered := hlongest other.length hlonger hle
      rw [← htake, hsymbol] at hunregistered
      cases hunregistered
  · rw [hnone]
    refine .inr ⟨rfl, fun other hne hother => ?_⟩
    rw [Bool.eq_false_iff]
    intro hsymbol
    obtain ⟨htake, hle⟩ := hbounded other hother hsymbol
    have hunregistered := hall other.length (List.length_pos_iff.mpr hne) hle
    rw [← htake, hsymbol] at hunregistered
    cases hunregistered

/-- Whatever an operator took is one operator where it stands alone. -/
theorem isOperator_of_takes {chars : List Char} (h : registry.Takes run chars) (hne : chars ≠ [])
    (hrun : ∀ c ∈ run, Registry.isSymbolChar c = true) : IsOperator registry chars where
  nonempty := hne
  symbols c hc := hrun c (h.isPrefix.subset hc)
  whole := (takes_operatorChars registry chars).eq h.whole

end Lexeme

end Formula
