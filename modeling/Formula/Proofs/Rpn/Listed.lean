import Formula.Proofs.Failure.Place
import Formula.Rpn

/-! # What the yard lists

The notation lists tokens of the text, without its commas and closing parentheses, and products between
neighbours. Its operators are registered, with as many operands as their kind says. Where listing or
checking fails, it is at a token.
-/
namespace Formula

structure Token.Listable (registry : Registry) (names : List String) (bound : Nat) (token : Token) :
    Prop where
  offset : token.offset < bound
  kind : token.kind ≠ .comma ∧ token.kind ≠ .closeParen
  name : token.kind = .variableName → token.surface ∈ names
  binary : token.kind = .operator →
    ∃ op, registry.operator? token.surface = some op ∧ op.unary = false
  unary : token.kind = .unaryOperator →
    ∃ op, registry.operator? token.surface = some op ∧ op.unary = true

variable {registry : Registry} {names : List String} {bound : Nat}

namespace Token.Listable

variable {token : Token}

theorem exists_operator (h : token.Listable registry names bound)
    (hkind : token.kind.isOperator = true) : ∃ op, registry.operator? token.surface = some op := by
  obtain ⟨kind, surface, offset⟩ := token
  cases kind with
  | operator =>
    obtain ⟨op, hop, -⟩ := h.binary rfl
    exact ⟨op, hop⟩
  | unaryOperator =>
    obtain ⟨op, hop, -⟩ := h.unary rfl
    exact ⟨op, hop⟩
  | _ => cases hkind

/-- Only operators have to be looked up. -/
theorem of_isOperator_eq_false (hoffset : token.offset < bound)
    (hname : token.kind = .variableName → token.surface ∈ names)
    (hkind : token.kind ≠ .comma ∧ token.kind ≠ .closeParen) (hop : token.kind.isOperator = false) :
    token.Listable registry names bound where
  offset := hoffset
  kind := hkind
  name := hname
  binary h := by simp [h, TokenKind.isOperator] at hop
  unary h := by simp [h, TokenKind.isOperator] at hop

end Token.Listable

namespace Rpn

structure Yard.Listable (registry : Registry) (names : List String) (bound : Nat) (yard : Yard) :
    Prop where
  output : ∀ token ∈ yard.output, token.Listable registry names bound
  waiting : ∀ token ∈ yard.waiting, token.Listable registry names bound

variable {output waiting : List Token}

theorem releaseFor_listable (op : Operator)
    (houtput : ∀ token ∈ output, token.Listable registry names bound)
    (hwaiting : ∀ token ∈ waiting, token.Listable registry names bound) :
    Yields (Yard.Listable registry names bound) (Failure.LiesIn 0 bound)
      (releaseFor registry op output waiting) := by
  induction waiting generalizing output with
  | nil => exact .ok ⟨houtput, hwaiting⟩
  | cons top rest ih =>
    obtain ⟨htop, hrest⟩ := List.forall_mem_cons.mp hwaiting
    unfold releaseFor
    split
    next hkind =>
      obtain ⟨waitingOperator, hop⟩ := htop.exists_operator hkind
      rw [hop]
      exact .ite (ih (List.forall_mem_cons.mpr ⟨htop, houtput⟩) hrest) (.ok ⟨houtput, hwaiting⟩)
    next => exact .ok ⟨houtput, hwaiting⟩

theorem releaseGroup_listable (houtput : ∀ token ∈ output, token.Listable registry names bound)
    (hwaiting : ∀ token ∈ waiting, token.Listable registry names bound) :
    (releaseGroup output waiting).Listable registry names bound := by
  induction waiting generalizing output with
  | nil => exact ⟨houtput, hwaiting⟩
  | cons top rest ih =>
    obtain ⟨htop, hrest⟩ := List.forall_mem_cons.mp hwaiting
    unfold releaseGroup
    split
    · exact ⟨houtput, hwaiting⟩
    · exact ih (List.forall_mem_cons.mpr ⟨htop, houtput⟩) hrest

section Step

variable {previous : Option Token} {token : Token} {yard : Yard}

theorem joinOperands_listable
    (hproduct : ∀ op, registry.operator? productSymbol = some op → op.unary = false)
    (previous : Option Token) (hoffset : token.offset < bound)
    (hyard : yard.Listable registry names bound) :
    Yields (Yard.Listable registry names bound) (Failure.LiesIn 0 bound)
      (joinOperands registry previous token yard) := by
  unfold joinOperands
  cases previous with
  | none => exact .ok hyard
  | some left =>
    refine .ite ?_ (.ok hyard)
    cases hop : registry.operator? productSymbol with
    | none => exact .error (Failure.liesIn_at _ hoffset)
    | some product =>
      refine .ite ?_ (.error (Failure.liesIn_at _ hoffset))
      refine (releaseFor_listable product hyard.output hyard.waiting).bind fun released hreleased => ?_
      have hjoined : Token.Listable registry names bound ⟨.operator, productSymbol, token.offset⟩ :=
        ⟨hoffset, ⟨nofun, nofun⟩, nofun, fun _ => ⟨product, hop, hproduct product hop⟩, nofun⟩
      exact .ok ⟨hreleased.output, List.forall_mem_cons.mpr ⟨hjoined, hreleased.waiting⟩⟩

theorem addComma_listable (previous : Option Token) (hoffset : token.offset < bound)
    (hyard : yard.Listable registry names bound) :
    Yields (Yard.Listable registry names bound) (Failure.LiesIn 0 bound)
      (addComma previous token yard) := by
  have hgroup := releaseGroup_listable hyard.output hyard.waiting
  refine .ite (.error (Failure.liesIn_at _ hoffset)) ?_
  dsimp only
  split
  · exact .ok hgroup
  · exact .error (Failure.liesIn_at _ hoffset)

theorem addOperator_listable (previous : Option Token) (hkind : token.kind = .operator)
    (hoffset : token.offset < bound) (hyard : yard.Listable registry names bound) :
    Yields (Yard.Listable registry names bound) (Failure.LiesIn 0 bound)
      (addOperator registry previous token yard) := by
  refine .ite (.error (Failure.liesIn_at _ hoffset)) ?_
  cases hop : registry.operator? token.surface with
  | none => exact .error (Failure.liesIn_at _ hoffset)
  | some op =>
    dsimp only
    split
    next => exact .error (Failure.liesIn_at _ hoffset)
    next hunary =>
      have hlisted : token.Listable registry names bound :=
        ⟨hoffset, by simp [hkind], by simp [hkind], fun _ => ⟨op, hop, by simpa using hunary⟩,
          by simp [hkind]⟩
      refine (releaseFor_listable op hyard.output hyard.waiting).bind fun released hreleased => ?_
      exact .ok ⟨hreleased.output, List.forall_mem_cons.mpr ⟨hlisted, hreleased.waiting⟩⟩

theorem addUnary_listable (previous : Option Token) (hkind : token.kind = .unaryOperator)
    (hoffset : token.offset < bound) (hyard : yard.Listable registry names bound) :
    Yields (Yard.Listable registry names bound) (Failure.LiesIn 0 bound)
      (addUnary registry previous token yard) := by
  refine .ite ?_ (.error (Failure.liesIn_at _ hoffset))
  split
  next hunary =>
    have hregistered : ∃ op, registry.operator? token.surface = some op ∧ op.unary = true := by
      cases hop : registry.operator? token.surface with
      | none => simp [hop] at hunary
      | some op => exact ⟨op, rfl, by simpa [hop] using hunary⟩
    have hlisted : token.Listable registry names bound :=
      ⟨hoffset, by simp [hkind], by simp [hkind], by simp [hkind], fun _ => hregistered⟩
    exact .ok ⟨hyard.output, List.forall_mem_cons.mpr ⟨hlisted, hyard.waiting⟩⟩
  next => exact .error (Failure.liesIn_at _ hoffset)

theorem addOpenParen_listable (previous : Option Token) (htoken : token.Listable registry names bound)
    (hyard : yard.Listable registry names bound) :
    (addOpenParen previous token yard).Listable registry names bound := by
  have hwaiting := List.forall_mem_cons.mpr ⟨htoken, hyard.waiting⟩
  unfold addOpenParen
  split
  · exact ⟨List.forall_mem_cons.mpr ⟨htoken, hyard.output⟩, hwaiting⟩
  · exact ⟨hyard.output, hwaiting⟩

/-- At the start of the text nothing is open; in general this is what happens unless an operand is
missing before the parenthesis. -/
theorem addCloseParen_none_listable (hoffset : token.offset < bound)
    (hyard : yard.Listable registry names bound) :
    Yields (Yard.Listable registry names bound) (Failure.LiesIn 0 bound)
      (addCloseParen none token yard) := by
  have hgroup := releaseGroup_listable hyard.output hyard.waiting
  unfold addCloseParen
  generalize releaseGroup yard.output yard.waiting = released at hgroup
  obtain ⟨output, waiting⟩ := released
  obtain ⟨houtput, hwaiting⟩ := hgroup
  rcases waiting with _ | ⟨opening, _ | ⟨top, rest⟩⟩
  · exact .error (Failure.liesIn_at _ hoffset)
  · exact .ok ⟨houtput, List.forall_mem_nil _⟩
  · obtain ⟨-, hbelow⟩ := List.forall_mem_cons.mp hwaiting
    obtain ⟨htop, hrest⟩ := List.forall_mem_cons.mp hbelow
    exact .ite (.ok ⟨List.forall_mem_cons.mpr ⟨htop, houtput⟩, hrest⟩) (.ok ⟨houtput, hbelow⟩)

theorem addCloseParen_listable (hprevious : ∀ left ∈ previous, left.offset < bound)
    (hoffset : token.offset < bound) (hyard : yard.Listable registry names bound) :
    Yields (Yard.Listable registry names bound) (Failure.LiesIn 0 bound)
      (addCloseParen previous token yard) := by
  have hcomplete := addCloseParen_none_listable hoffset hyard
  cases previous with
  | none => exact hcomplete
  | some left => exact .ite (.error (Failure.liesIn_at _ (hprevious left rfl))) hcomplete

/-- One step keeps what may be listed, or fails at the token or at the one before it. -/
theorem step_listable (hproduct : ∀ op, registry.operator? productSymbol = some op → op.unary = false)
    (hprevious : ∀ left ∈ previous, left.offset < bound) (hoffset : token.offset < bound)
    (hname : token.kind = .variableName → token.surface ∈ names)
    (hyard : yard.Listable registry names bound) :
    Yields (Yard.Listable registry names bound) (Failure.LiesIn 0 bound)
      (step registry previous token yard) := by
  refine (joinOperands_listable hproduct previous hoffset hyard).bind fun joined hjoined => ?_
  have hlisted (hkind : token.kind ≠ .comma ∧ token.kind ≠ .closeParen)
      (hop : token.kind.isOperator = false) : token.Listable registry names bound :=
    .of_isOperator_eq_false hoffset hname hkind hop
  cases hkind : token.kind with
  | comma => exact addComma_listable previous hoffset hjoined
  | operator => exact addOperator_listable previous hkind hoffset hjoined
  | unaryOperator => exact addUnary_listable previous hkind hoffset hjoined
  | closeParen => exact addCloseParen_listable hprevious hoffset hjoined
  | openParen =>
    have htoken := hlisted (by simp [hkind]) (by simp [hkind, TokenKind.isOperator])
    exact .ok (addOpenParen_listable previous htoken hjoined)
  | functionName =>
    have htoken := hlisted (by simp [hkind]) (by simp [hkind, TokenKind.isOperator])
    exact .ok ⟨hjoined.output, List.forall_mem_cons.mpr ⟨htoken, hjoined.waiting⟩⟩
  | number | hexadecimal | text | variableName =>
    have htoken := hlisted (by simp [hkind]) (by simp [hkind, TokenKind.isOperator])
    exact .ok ⟨List.forall_mem_cons.mpr ⟨htoken, hjoined.output⟩, hjoined.waiting⟩

end Step

theorem finish_listable (houtput : ∀ token ∈ output, token.Listable registry names bound)
    (hwaiting : ∀ token ∈ waiting, token.Listable registry names bound) :
    Yields (fun rpn => ∀ token ∈ rpn, token.Listable registry names bound) (Failure.LiesIn 0 bound)
      (finish output waiting) := by
  induction waiting generalizing output with
  | nil => exact .ok fun token htoken => houtput token (List.mem_reverse.mp htoken)
  | cons top rest ih =>
    obtain ⟨htop, hrest⟩ := List.forall_mem_cons.mp hwaiting
    exact .ite (.error (Failure.liesIn_at _ htop.offset))
      (ih (List.forall_mem_cons.mpr ⟨htop, houtput⟩) hrest)

/-- From a yard on, the rest of the tokens is listed, or listing fails at a token. -/
theorem steps_listable (hproduct : ∀ op, registry.operator? productSymbol = some op → op.unary = false)
    {previous : Option Token} (hprevious : ∀ left ∈ previous, left.offset < bound) {yard : Yard}
    (hyard : yard.Listable registry names bound) {tokens : List Token}
    (htokens : ∀ token ∈ tokens,
      token.offset < bound ∧ (token.kind = .variableName → token.surface ∈ names)) :
    Yields (fun rpn => ∀ token ∈ rpn, token.Listable registry names bound) (Failure.LiesIn 0 bound)
      (steps registry previous yard tokens) := by
  induction tokens generalizing previous yard with
  | nil => exact finish_listable hyard.output hyard.waiting
  | cons token tokens ih =>
    obtain ⟨⟨hoffset, hname⟩, htokens⟩ := List.forall_mem_cons.mp htokens
    refine (step_listable hproduct hprevious hoffset hname hyard).bind fun next hnext => ?_
    refine ih (fun left hleft => ?_) hnext htokens
    obtain rfl := Option.some.inj hleft
    exact hoffset

theorem countToken_failsIn (scopes : Scopes) {token : Token} (hoffset : token.offset < bound) :
    FailsWith (Failure.LiesIn 0 bound) (countToken registry scopes token) := by
  have herror (cause : Cause) : FailsWith (Failure.LiesIn 0 bound)
      (.error (.at cause token.offset) : Except Failure Scopes) :=
    .error (Failure.liesIn_at cause hoffset)
  unfold countToken
  split
  · exact .ite (herror _) (.ok trivial)
  · exact .ite (.ite (herror _) (herror _)) (.ok trivial)
  · split
    · exact herror _
    · refine .ite (herror _) ?_
      split
      · exact herror _
      · exact .ok trivial
  · exact .ok trivial
  · exact .ok trivial

theorem countTokens_failsIn (scopes : Scopes) {rpn : List Token}
    (hrpn : ∀ token ∈ rpn, token.offset < bound) :
    FailsWith (Failure.LiesIn 0 bound) (countTokens registry scopes rpn) := by
  induction rpn generalizing scopes with
  | nil => exact .ok trivial
  | cons token rpn ih =>
    obtain ⟨hoffset, hrpn⟩ := List.forall_mem_cons.mp hrpn
    exact (countToken_failsIn scopes hoffset).bind fun next _ => ih next hrpn

/-- What is missing or left over in the end is reported at the last token. -/
theorem validate_failsIn (hbound : 0 < bound) {rpn : List Token}
    (hrpn : ∀ token ∈ rpn, token.offset < bound) :
    FailsWith (Failure.LiesIn 0 bound) (validate registry rpn) := by
  refine (countTokens_failsIn _ hrpn).bind fun scopes _ => ?_
  have hlast : (rpn.getLast?.map (·.offset)).getD 0 < bound := by
    cases hlast : rpn.getLast? with
    | none => exact hbound
    | some last => exact hrpn last (List.mem_of_getLast? hlast)
  have herror (cause : Cause) : FailsWith (Failure.LiesIn 0 bound)
      (.error (.at cause ((rpn.getLast?.map (·.offset)).getD 0)) : Except Failure Unit) :=
    .error (Failure.liesIn_at cause hlast)
  exact .ite (herror _) (.ite (herror _) (.ite (herror _) (.ok trivial)))

/-- Checked notation lists what may be listed and is valid; or it is refused at a token. -/
theorem checked_listable (hproduct : ∀ op, registry.operator? productSymbol = some op → op.unary = false)
    (hbound : 0 < bound) {tokens : List Token}
    (htokens : ∀ token ∈ tokens,
      token.offset < bound ∧ (token.kind = .variableName → token.surface ∈ names)) :
    Yields (fun rpn => (∀ token ∈ rpn, token.Listable registry names bound) ∧
        validate registry rpn = .ok ())
      (Failure.LiesIn 0 bound) (checked registry tokens) := by
  have hempty : (Yard.mk [] []).Listable registry names bound :=
    ⟨List.forall_mem_nil _, List.forall_mem_nil _⟩
  have hnone : ∀ left ∈ (none : Option Token), left.offset < bound := by simp
  refine (steps_listable hproduct hnone hempty htokens).bind fun rpn hrpn => ?_
  have hvalid : FailsWith (Failure.LiesIn 0 bound) (validate registry rpn) :=
    validate_failsIn hbound fun token htoken => (hrpn token htoken).offset
  cases hresult : validate registry rpn with
  | ok => exact .ok ⟨hrpn, hresult⟩
  | error failure =>
    rw [hresult] at hvalid
    exact .error hvalid.of_error

end Rpn

end Formula
