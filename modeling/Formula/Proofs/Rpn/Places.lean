import Formula.Rpn
import Formula.Proofs.Token.Sequence

/-! # Places do not matter for the notation

Where tokens stand in the text decides only which offset a failure carries. Tokens of the same kinds
and surfaces are listed alike, and are accepted or refused for the same causes.
-/
namespace Formula

def Failure.unplaced : Failure → Failure
  | .expression cause _ => .of cause
  | failure => failure

inductive Alike {α β : Type} (f : α → β) : Except Failure α → Except Failure β → Prop
  | ok (a : α) : Alike f (.ok a) (.ok (f a))
  | error {failure other : Failure} (h : failure.unplaced = other.unplaced) :
      Alike f (.error failure) (.error other)

theorem Alike.bind {α β γ δ : Type} {f : α → β} {g : γ → δ} {result : Except Failure α}
    {other : Except Failure β} {next : α → Except Failure γ} {further : β → Except Failure δ}
    (h : Alike f result other) (k : ∀ a, Alike g (next a) (further (f a))) :
    Alike g (result.bind next) (other.bind further) := by
  cases h with
  | ok a => exact k a
  | error h => exact .error h

theorem Alike.of_ok_left {α β : Type} {f : α → β} {a : α} {other : Except Failure β}
    (h : Alike f (.ok a) other) : other = .ok (f a) := by
  cases h
  rfl

theorem Alike.of_ok_right {α β : Type} {f : α → β} {result : Except Failure α} {b : β}
    (h : Alike f result (.ok b)) : ∃ a, result = .ok a ∧ f a = b := by
  cases h
  exact ⟨_, rfl, rfl⟩

namespace Rpn

open Token

variable {registry : Registry}

def Yard.unplaced (yard : Yard) : Yard := ⟨yard.output.map Token.unplaced, yard.waiting.map Token.unplaced⟩

theorem releaseFor_unplaced (op : Operator) (output waiting : List Token) :
    Alike Yard.unplaced (releaseFor registry op output waiting)
      (releaseFor registry op (output.map unplaced) (waiting.map unplaced)) := by
  induction waiting generalizing output with
  | nil => exact .ok _
  | cons top rest ih =>
    have hlisted := ih (top :: output)
    rw [List.map_cons] at hlisted
    rw [List.map_cons]
    unfold releaseFor
    rw [unplaced_kind, unplaced_surface]
    split
    · cases registry.operator? top.surface with
      | none => exact .error rfl
      | some waitingOperator =>
        dsimp only
        split
        · exact hlisted
        · exact .ok _
    · exact .ok _

theorem releaseGroup_unplaced (output waiting : List Token) :
    releaseGroup (output.map unplaced) (waiting.map unplaced) =
      (releaseGroup output waiting).unplaced := by
  induction waiting generalizing output with
  | nil => rfl
  | cons top rest ih =>
    have hlisted := ih (top :: output)
    rw [List.map_cons] at hlisted
    rw [List.map_cons, releaseGroup, releaseGroup]
    rw [unplaced_kind]
    split
    · rfl
    · exact hlisted

theorem follows_unplaced (previous : Option Token) (p : TokenKind → Bool) :
    follows (previous.map unplaced) p = follows previous p := by
  cases previous <;> rfl

theorem joinOperands_unplaced (previous : Option Token) (token : Token) (yard : Yard) :
    Alike Yard.unplaced (joinOperands registry previous token yard)
      (joinOperands registry (previous.map unplaced) token.unplaced yard.unplaced) := by
  cases previous with
  | none => exact .ok _
  | some left =>
    rw [Option.map_some]
    unfold joinOperands
    dsimp only
    rw [unplaced_kind, unplaced_kind]
    split
    · cases registry.operator? productSymbol with
      | none => exact .error rfl
      | some product =>
        dsimp only
        split
        · exact (releaseFor_unplaced product yard.output yard.waiting).bind fun _ => .ok _
        · exact .error rfl
    · exact .ok _

theorem addComma_unplaced (previous : Option Token) (token : Token) (yard : Yard) :
    Alike Yard.unplaced (addComma previous token yard)
      (addComma (previous.map unplaced) token.unplaced yard.unplaced) := by
  have hgroup := releaseGroup_unplaced yard.output yard.waiting
  unfold addComma
  rw [follows_unplaced]
  split
  · exact .error rfl
  · simp only [Yard.unplaced, hgroup]
    obtain ⟨output, waiting⟩ := releaseGroup yard.output yard.waiting
    rcases waiting with _ | ⟨opening, _ | ⟨⟨kind, surface, offset⟩, rest⟩⟩
    · exact .error rfl
    · exact .error rfl
    · cases kind <;> first | exact .ok _ | exact .error rfl

theorem addOperator_unplaced (previous : Option Token) (token : Token) (yard : Yard) :
    Alike Yard.unplaced (addOperator registry previous token yard)
      (addOperator registry (previous.map unplaced) token.unplaced yard.unplaced) := by
  unfold addOperator
  rw [follows_unplaced, unplaced_surface]
  split
  · exact .error rfl
  · cases registry.operator? token.surface with
    | none => exact .error rfl
    | some op =>
      dsimp only
      split
      · exact .error rfl
      · exact (releaseFor_unplaced op yard.output yard.waiting).bind fun _ => .ok _

theorem addUnary_unplaced (previous : Option Token) (token : Token) (yard : Yard) :
    Alike Yard.unplaced (addUnary registry previous token yard)
      (addUnary registry (previous.map unplaced) token.unplaced yard.unplaced) := by
  unfold addUnary
  rw [follows_unplaced, unplaced_surface]
  split
  · split
    · exact .ok _
    · exact .error rfl
  · exact .error rfl

theorem addOpenParen_unplaced (previous : Option Token) (token : Token) (yard : Yard) :
    addOpenParen (previous.map unplaced) token.unplaced yard.unplaced =
      (addOpenParen previous token yard).unplaced := by
  have hname : ((previous.map unplaced).any fun t => t.kind == .functionName) =
      previous.any fun t => t.kind == .functionName := by
    cases previous <;> rfl
  unfold addOpenParen
  rw [hname]
  split <;> rfl

theorem addCloseParen_unplaced (previous : Option Token) (token : Token) (yard : Yard) :
    Alike Yard.unplaced (addCloseParen previous token yard)
      (addCloseParen (previous.map unplaced) token.unplaced yard.unplaced) := by
  have hgroup := releaseGroup_unplaced yard.output yard.waiting
  unfold addCloseParen
  simp only [Yard.unplaced, hgroup]
  obtain ⟨output, waiting⟩ := releaseGroup yard.output yard.waiting
  cases previous
  case' some before =>
    simp only [Option.map_some, unplaced_kind]
    split
    case isTrue => exact .error rfl
  -- With nothing or an operand before it, the parenthesis closes what waits.
  all_goals
    rcases waiting with _ | ⟨opening, _ | ⟨top, rest⟩⟩
    · exact .error rfl
    · exact .ok _
    · by_cases hname : top.kind = .functionName
      · simp only [List.map_cons, unplaced_kind, hname, ↓reduceIte]
        exact .ok _
      · simp only [List.map_cons, unplaced_kind, hname, ↓reduceIte]
        exact .ok _

theorem step_unplaced (previous : Option Token) (token : Token) (yard : Yard) :
    Alike Yard.unplaced (step registry previous token yard)
      (step registry (previous.map unplaced) token.unplaced yard.unplaced) := by
  refine (joinOperands_unplaced previous token yard).bind fun yard => ?_
  rw [unplaced_kind]
  cases token.kind with
  | number | hexadecimal | text | variableName | functionName => exact .ok _
  | comma => exact addComma_unplaced previous token yard
  | operator => exact addOperator_unplaced previous token yard
  | unaryOperator => exact addUnary_unplaced previous token yard
  | openParen =>
    rw [addOpenParen_unplaced]
    exact .ok _
  | closeParen => exact addCloseParen_unplaced previous token yard

theorem finish_unplaced (output waiting : List Token) :
    Alike (List.map unplaced) (finish output waiting)
      (finish (output.map unplaced) (waiting.map unplaced)) := by
  induction waiting generalizing output with
  | nil =>
    rw [List.map_nil, finish, finish, ← List.map_reverse]
    exact .ok _
  | cons top rest ih =>
    have hlisted := ih (top :: output)
    rw [List.map_cons] at hlisted
    rw [List.map_cons, finish, finish, unplaced_kind]
    split
    · exact .error rfl
    · exact hlisted

theorem steps_unplaced (previous : Option Token) (yard : Yard) (tokens : List Token) :
    Alike (List.map unplaced) (steps registry previous yard tokens)
      (steps registry (previous.map unplaced) yard.unplaced (tokens.map unplaced)) := by
  induction tokens generalizing previous yard with
  | nil => exact finish_unplaced yard.output yard.waiting
  | cons token tokens ih => exact (step_unplaced previous token yard).bind fun yard => ih (some token) yard

theorem ofTokens_unplaced (tokens : List Token) :
    Alike (List.map unplaced) (ofTokens registry tokens) (ofTokens registry (tokens.map unplaced)) :=
  steps_unplaced none ⟨[], []⟩ tokens

theorem countToken_unplaced (scopes : Scopes) (token : Token) :
    Alike id (countToken registry scopes token) (countToken registry scopes token.unplaced) := by
  unfold countToken
  rw [unplaced_kind, unplaced_surface]
  cases token.kind with
  | number | hexadecimal | text | variableName | openParen | closeParen | comma => exact .ok _
  | unaryOperator =>
    dsimp only
    split
    · exact .error rfl
    · exact .ok _
  | operator =>
    dsimp only
    split
    · split <;> exact .error rfl
    · exact .ok _
  | functionName =>
    dsimp only
    cases registry.function? token.surface with
    | none => exact .error rfl
    | some f =>
      dsimp only
      split
      · exact .error rfl
      · cases scopes.outer with
        | nil => exact .error rfl
        | cons => exact .ok _

theorem countTokens_unplaced (scopes : Scopes) (tokens : List Token) :
    Alike id (countTokens registry scopes tokens)
      (countTokens registry scopes (tokens.map unplaced)) := by
  induction tokens generalizing scopes with
  | nil => exact .ok _
  | cons token tokens ih => exact (countToken_unplaced scopes token).bind ih

theorem validate_unplaced (rpn : List Token) :
    Alike id (validate registry rpn) (validate registry (rpn.map unplaced)) := by
  refine (countTokens_unplaced ⟨0, []⟩ rpn).bind fun scopes => ?_
  dsimp only [id]
  split
  · exact .error rfl
  split
  · exact .error rfl
  split
  · exact .error rfl
  · exact .ok _

/-- The checked notation of tokens does not depend on their places. -/
theorem checked_unplaced (registry : Registry) (tokens : List Token) :
    Alike (List.map unplaced) (checked registry tokens) (checked registry (tokens.map unplaced)) :=
  (ofTokens_unplaced tokens).bind fun rpn => (validate_unplaced rpn).bind fun _ => .ok rpn

end Rpn

end Formula
