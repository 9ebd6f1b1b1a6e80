import Formula.Library.Standard
import Formula.Proofs.Failure.Place
import Formula.Proofs.Token.Order
import Formula.Rpn

/-! # Operators are found when a text is listed

Every operator that waits was looked up before it was put there. So an operator that releases others finds
them again; and since the tokens of a text stand in order, a unary operator is never out of place and a
binary one never without anything before it.
-/
namespace Formula

def Token.Registered (registry : Registry) (token : Token) : Prop :=
  token.kind.isOperator = true → (registry.operator? token.surface).isSome = true

/-- Of what can go wrong, neither an operator out of place nor one that was to be looked up and is missing. -/
structure Failure.Foreseen (failure : Failure) : Prop where
  placed : ∀ symbol offset, failure ≠ .at (.misplacedUnaryOperator symbol) offset
  preceded : ∀ symbol offset, failure ≠ .at (.missingOperands symbol) offset
  found : failure ≠ .fault .missingMember

namespace Rpn

variable {registry : Registry} {previous : Option Token} {token : Token} {yard : Yard}
  {output waiting : List Token}

def Yard.Registered (registry : Registry) (yard : Yard) : Prop :=
  ∀ token ∈ yard.waiting, token.Registered registry

theorem releaseFor_registered (op : Operator) (output : List Token)
    (hwaiting : ∀ token ∈ waiting, token.Registered registry) :
    ∃ released, releaseFor registry op output waiting = .ok released ∧ released.Registered registry := by
  induction waiting generalizing output with
  | nil => exact ⟨_, rfl, List.forall_mem_nil _⟩
  | cons top rest ih =>
    obtain ⟨htop, hrest⟩ := List.forall_mem_cons.mp hwaiting
    unfold releaseFor
    split
    next hkind =>
      obtain ⟨found, hfound⟩ := Option.isSome_iff_exists.mp (htop hkind)
      rw [hfound]
      dsimp only
      split
      · exact ih (top :: output) hrest
      · exact ⟨_, rfl, hwaiting⟩
    next => exact ⟨_, rfl, hwaiting⟩

theorem releaseGroup_registered (output : List Token)
    (hwaiting : ∀ token ∈ waiting, token.Registered registry) :
    (releaseGroup output waiting).Registered registry := by
  induction waiting generalizing output with
  | nil => exact List.forall_mem_nil _
  | cons top rest ih =>
    unfold releaseGroup
    split
    · exact hwaiting
    · exact ih (top :: output) (List.forall_mem_cons.mp hwaiting).2

section Step

variable (hyard : yard.Registered registry)

include hyard

theorem joinOperands_foreseen (previous : Option Token) (token : Token) :
    Yields (Yard.Registered registry) Failure.Foreseen (joinOperands registry previous token yard) := by
  unfold joinOperands
  cases previous with
  | none => exact .ok hyard
  | some left =>
    refine .ite ?_ (.ok hyard)
    cases hop : registry.operator? productSymbol with
    | none => exact .error ⟨nofun, nofun, nofun⟩
    | some product =>
      refine .ite ?_ (.error ⟨nofun, nofun, nofun⟩)
      obtain ⟨released, hreleased, hregistered⟩ := releaseFor_registered product yard.output hyard
      rw [hreleased]
      have hproduct : Token.Registered registry ⟨.operator, productSymbol, token.offset⟩ :=
        fun _ => Option.isSome_iff_exists.mpr ⟨product, hop⟩
      exact .ok (List.forall_mem_cons.mpr ⟨hproduct, hregistered⟩)

theorem addComma_foreseen (previous : Option Token) (token : Token) :
    Yields (Yard.Registered registry) Failure.Foreseen (addComma previous token yard) := by
  have hgroup := releaseGroup_registered yard.output hyard
  refine .ite (.error ⟨nofun, nofun, nofun⟩) ?_
  dsimp only
  split
  · exact .ok hgroup
  · exact .error ⟨nofun, nofun, nofun⟩

/-- Where a binary operator stands in a text, something stands before it that is no comma and opens
nothing. -/
theorem addOperator_foreseen (hkind : token.kind = .operator)
    (hfollows : token.kind.Follows (previous.map (·.kind))) :
    Yields (Yard.Registered registry) Failure.Foreseen (addOperator registry previous token yard) := by
  have hpreceded : follows previous (fun kind => kind == .comma || kind == .openParen) = false := by
    have hunary := hfollows.unary (by rw [hkind]; rfl)
    rw [hkind] at hunary
    cases previous with
    | none => exact absurd (hunary.mpr rfl) nofun
    | some left =>
      obtain ⟨kind, surface, offset⟩ := left
      cases kind with
      | comma | openParen => exact absurd (hunary.mpr rfl) nofun
      | _ => rfl
  unfold addOperator
  rw [hpreceded, if_neg Bool.false_ne_true]
  cases hop : registry.operator? token.surface with
  | none => exact .error ⟨nofun, nofun, nofun⟩
  | some op =>
    refine .ite (.error ⟨nofun, nofun, nofun⟩) ?_
    obtain ⟨released, hreleased, hregistered⟩ := releaseFor_registered op yard.output hyard
    rw [hreleased]
    have htoken : token.Registered registry := fun _ => Option.isSome_iff_exists.mpr ⟨op, hop⟩
    exact .ok (List.forall_mem_cons.mpr ⟨htoken, hregistered⟩)

/-- Where a unary operator stands in a text, an operand has to come. -/
theorem addUnary_foreseen (hkind : token.kind = .unaryOperator)
    (hfollows : token.kind.Follows (previous.map (·.kind))) :
    Yields (Yard.Registered registry) Failure.Foreseen (addUnary registry previous token yard) := by
  have hplaced : follows previous TokenKind.precedesUnary = true := by
    have hunary := (hfollows.unary (by rw [hkind]; rfl)).mp hkind
    cases previous with
    | none => rfl
    | some left => exact hunary
  unfold addUnary
  rw [if_pos hplaced]
  split
  next hunary =>
    have htoken : token.Registered registry := by
      intro _
      cases hop : registry.operator? token.surface with
      | none => simp [hop] at hunary
      | some op => rfl
    exact .ok (List.forall_mem_cons.mpr ⟨htoken, hyard⟩)
  next => exact .error ⟨nofun, nofun, nofun⟩

theorem addCloseParen_foreseen (previous : Option Token) (token : Token) :
    Yields (Yard.Registered registry) Failure.Foreseen (addCloseParen previous token yard) := by
  have hcomplete : Yields (Yard.Registered registry) Failure.Foreseen (addCloseParen none token yard) := by
    have hgroup := releaseGroup_registered yard.output hyard
    unfold addCloseParen
    generalize releaseGroup yard.output yard.waiting = released at hgroup
    obtain ⟨output, waiting⟩ := released
    rcases waiting with _ | ⟨opening, _ | ⟨top, rest⟩⟩
    · exact .error ⟨nofun, nofun, nofun⟩
    · exact .ok (List.forall_mem_nil _)
    · have hbelow := (List.forall_mem_cons.mp hgroup).2
      exact .ite (.ok (List.forall_mem_cons.mp hbelow).2) (.ok hbelow)
  cases previous with
  | none => exact hcomplete
  | some left => exact .ite (.error ⟨nofun, nofun, nofun⟩) hcomplete

theorem step_foreseen (hfollows : token.kind.Follows (previous.map (·.kind))) :
    Yields (Yard.Registered registry) Failure.Foreseen (step registry previous token yard) := by
  -- a product that is not written may wait already when the token comes
  refine (joinOperands_foreseen hyard previous token).bind fun joined hjoined => ?_
  have hwaits (hkind : token.kind.isOperator = false) :
      ∀ other ∈ token :: joined.waiting, other.Registered registry :=
    List.forall_mem_cons.mpr ⟨fun hoperator => by simp [hkind] at hoperator, hjoined⟩
  cases hkind : token.kind with
  | comma => exact addComma_foreseen hjoined previous token
  | operator => exact addOperator_foreseen hjoined hkind hfollows
  | unaryOperator => exact addUnary_foreseen hjoined hkind hfollows
  | closeParen => exact addCloseParen_foreseen hjoined previous token
  | openParen =>
    refine .ok ?_
    unfold addOpenParen
    split
    · exact hwaits (by rw [hkind]; rfl)
    · exact hwaits (by rw [hkind]; rfl)
  | functionName => exact .ok (hwaits (by rw [hkind]; rfl))
  | number | hexadecimal | text | variableName => exact .ok hjoined

end Step

def advance (registry : Registry) (previous : Option Token) (yard : Yard) :
    List Token → Except Failure Yard
  | [] => .ok yard
  | token :: tokens => do
    let yard ← step registry previous token yard
    advance registry (some token) yard tokens

/-- Listing goes through all tokens, and then lists what still waits. -/
theorem steps_eq_advance (registry : Registry) (previous : Option Token) (yard : Yard) (tokens : List Token) :
    steps registry previous yard tokens =
      (advance registry previous yard tokens >>= fun last => finish last.output last.waiting) := by
  induction tokens generalizing previous yard with
  | nil => rfl
  | cons token tokens ih =>
    unfold steps advance
    cases step registry previous token yard with
    | error failure => rfl
    | ok next => exact ih (some token) next

/-- Whatever part of the tokens was taken in, only operators of the registry wait. -/
theorem advance_foreseen (previous : Option Token) (front back : List Token)
    (hsuccessive : Successive (previous.map (·.kind)) (front ++ back)) (hyard : yard.Registered registry) :
    Yields (Yard.Registered registry) Failure.Foreseen (advance registry previous yard front) := by
  induction front generalizing previous yard with
  | nil => exact .ok hyard
  | cons token front ih =>
    obtain ⟨hfollows, hrest⟩ := hsuccessive
    exact (step_foreseen hyard hfollows).bind fun next hnext => ih (some token) hrest hnext

theorem finish_foreseen (output waiting : List Token) :
    FailsWith Failure.Foreseen (finish output waiting) := by
  induction waiting generalizing output with
  | nil => exact .ok trivial
  | cons top rest ih => exact .ite (.error ⟨nofun, nofun, nofun⟩) (ih (top :: output))

end Rpn

/-- The tokens of a text stand in order. So listing them ends neither with a unary operator out of place nor
with an operator that has nothing before it; and at every point all operators that wait are found in the
registry, whatever operator comes to release them. -/
theorem text_listed_in_order {registry : Registry} {source : String} {tokens : List Token}
    (h : tokenize registry source = .ok tokens) :
    Orderly tokens ∧
      (∀ failure, Rpn.ofTokens registry tokens = .error failure → failure.Foreseen) ∧
      ∀ front back yard, tokens = front ++ back → Rpn.advance registry none ⟨[], []⟩ front = .ok yard →
        (∀ token ∈ yard.waiting, token.Registered registry) ∧
          ∀ op, ∃ released, Rpn.releaseFor registry op yard.output yard.waiting = .ok released := by
  have hsuccessive := successive_of_tokenize h
  have hempty : Rpn.Yard.Registered registry ⟨[], []⟩ := List.forall_mem_nil _
  refine ⟨orderly_of_tokenize h, fun failure hfailure => ?_, fun front back yard hsplit hyard => ?_⟩
  · rw [Rpn.ofTokens, Rpn.steps_eq_advance] at hfailure
    have hlisted : FailsWith Failure.Foreseen
        (Rpn.advance registry none ⟨[], []⟩ tokens >>= fun last => Rpn.finish last.output last.waiting) :=
      (Rpn.advance_foreseen none tokens [] (by simpa using hsuccessive) hempty).bind
        fun last _ => Rpn.finish_foreseen last.output last.waiting
    rw [hfailure] at hlisted
    exact hlisted.of_error
  · have hreached := Rpn.advance_foreseen none front back (hsplit ▸ hsuccessive) hempty
    rw [hyard] at hreached
    refine ⟨hreached.of_ok, fun op => ?_⟩
    obtain ⟨released, hreleased, -⟩ := Rpn.releaseFor_registered op yard.output hreached.of_ok
    exact ⟨released, hreleased⟩

def Token.signedCall : List Token :=
  [⟨.number, "2", 0⟩, ⟨.variableName, "x", 2⟩, ⟨.operator, "-", 4⟩, ⟨.functionName, "max", 6⟩,
   ⟨.openParen, "(", 9⟩, ⟨.unaryOperator, "-u", 10⟩, ⟨.number, "1", 11⟩, ⟨.comma, ",", 12⟩,
   ⟨.text, "ab", 14⟩, ⟨.closeParen, ")", 21⟩]

theorem signedCall_listed_in_order :
    Orderly Token.signedCall ∧
      (∀ failure, Rpn.ofTokens .standard Token.signedCall = .error failure → failure.Foreseen) ∧
      ∀ front back yard, Token.signedCall = front ++ back →
        Rpn.advance .standard none ⟨[], []⟩ front = .ok yard →
          (∀ token ∈ yard.waiting, token.Registered .standard) ∧
            ∀ op, ∃ released, Rpn.releaseFor .standard op yard.output yard.waiting = .ok released := by
  have htext : tokenize .standard "2 x - max(-1, 'a' 'b')" = .ok Token.signedCall := by decide +kernel
  exact text_listed_in_order htext

end Formula
