import Formula.Node
import Formula.Proofs.Registry.Extension

/-! # Registrations that a text does not speak of leave reading as it is

Two runs of listing, validation and building stay together as long as the registries say the same of
every token that waits. A product that is not written is the one token that listing adds.
-/
namespace Formula

def Unchanged {α : Type} (P : α → Prop) (result before : Except Failure α) : Prop :=
  result = before ∧ ∀ a, before = .ok a → P a

namespace Unchanged

variable {α β : Type} {P : α → Prop} {Q : β → Prop}

theorem ok {a : α} (h : P a) : Unchanged P (.ok a) (.ok a) :=
  ⟨rfl, fun _ heq => Except.ok.inj heq ▸ h⟩

theorem error (failure : Failure) : Unchanged P (.error failure) (.error failure) := ⟨rfl, nofun⟩

theorem bind {result before : Except Failure α} {next goes : α → Except Failure β}
    (h : Unchanged P result before) (hnext : ∀ a, P a → Unchanged Q (next a) (goes a)) :
    Unchanged Q (result >>= next) (before >>= goes) := by
  obtain ⟨rfl, hvalue⟩ := h
  cases result with
  | error failure => exact .error failure
  | ok a => exact hnext a (hvalue a rfl)

theorem ite {c : Prop} [Decidable c] {result before other further : Except Failure α}
    (h : Unchanged P result before) (k : Unchanged P other further) :
    Unchanged P (if c then result else other) (if c then before else further) := by
  split
  · exact h
  · exact k

end Unchanged

namespace Rpn

variable {registry next : Registry} {previous : Option Token} {token : Token} {yard : Yard}
  {output waiting tokens : List Token}

structure Yard.SameIn (registry next : Registry) (yard : Yard) : Prop where
  output : ∀ token ∈ yard.output, token.SameIn registry next
  waiting : ∀ token ∈ yard.waiting, token.SameIn registry next

theorem releaseFor_unchanged (op : Operator) (houtput : ∀ token ∈ output, token.SameIn registry next)
    (hwaiting : ∀ token ∈ waiting, token.SameIn registry next) :
    Unchanged (Yard.SameIn registry next) (releaseFor next op output waiting)
      (releaseFor registry op output waiting) := by
  induction waiting generalizing output with
  | nil => exact .ok ⟨houtput, hwaiting⟩
  | cons top rest ih =>
    obtain ⟨htop, hrest⟩ := List.forall_mem_cons.mp hwaiting
    unfold releaseFor
    by_cases hkind : top.kind.isOperator = true
    · rw [if_pos hkind, if_pos hkind, htop.operator hkind]
      cases registry.operator? top.surface with
      | none => exact .error _
      | some waitingOperator =>
        exact .ite (ih (List.forall_mem_cons.mpr ⟨htop, houtput⟩) hrest) (.ok ⟨houtput, hwaiting⟩)
    · rw [if_neg hkind, if_neg hkind]
      exact .ok ⟨houtput, hwaiting⟩

theorem releaseGroup_sameIn (houtput : ∀ token ∈ output, token.SameIn registry next)
    (hwaiting : ∀ token ∈ waiting, token.SameIn registry next) :
    (releaseGroup output waiting).SameIn registry next := by
  induction waiting generalizing output with
  | nil => exact ⟨houtput, hwaiting⟩
  | cons top rest ih =>
    obtain ⟨htop, hrest⟩ := List.forall_mem_cons.mp hwaiting
    unfold releaseGroup
    split
    · exact ⟨houtput, hwaiting⟩
    · exact ih (List.forall_mem_cons.mpr ⟨htop, houtput⟩) hrest

theorem joinOperands_unchanged
    (hproduct : next.operator? productSymbol = registry.operator? productSymbol)
    (previous : Option Token) (token : Token) (hyard : yard.SameIn registry next) :
    Unchanged (Yard.SameIn registry next) (joinOperands next previous token yard)
      (joinOperands registry previous token yard) := by
  unfold joinOperands
  cases previous with
  | none => exact .ok hyard
  | some left =>
    refine .ite ?_ (.ok hyard)
    rw [hproduct]
    cases registry.operator? productSymbol with
    | none => exact .error _
    | some product =>
      refine .ite ?_ (.error _)
      refine (releaseFor_unchanged product hyard.output hyard.waiting).bind fun released hreleased => ?_
      have hjoined : Token.SameIn registry next ⟨.operator, productSymbol, token.offset⟩ :=
        ⟨fun _ => hproduct, nofun⟩
      exact .ok ⟨hreleased.output, List.forall_mem_cons.mpr ⟨hjoined, hreleased.waiting⟩⟩

theorem addComma_unchanged (previous : Option Token) (token : Token)
    (hyard : yard.SameIn registry next) :
    Unchanged (Yard.SameIn registry next) (addComma previous token yard)
      (addComma previous token yard) := by
  have hgroup := releaseGroup_sameIn hyard.output hyard.waiting
  refine .ite (.error _) ?_
  dsimp only
  split
  · exact .ok hgroup
  · exact .error _

theorem addOperator_unchanged (previous : Option Token) (htoken : token.SameIn registry next)
    (hkind : token.kind = .operator) (hyard : yard.SameIn registry next) :
    Unchanged (Yard.SameIn registry next) (addOperator next previous token yard)
      (addOperator registry previous token yard) := by
  refine .ite (.error _) ?_
  rw [htoken.operator (by rw [hkind]; rfl)]
  cases registry.operator? token.surface with
  | none => exact .error _
  | some op =>
    refine .ite (.error _) ?_
    refine (releaseFor_unchanged op hyard.output hyard.waiting).bind fun released hreleased => ?_
    exact .ok ⟨hreleased.output, List.forall_mem_cons.mpr ⟨htoken, hreleased.waiting⟩⟩

theorem addUnary_unchanged (previous : Option Token) (htoken : token.SameIn registry next)
    (hkind : token.kind = .unaryOperator) (hyard : yard.SameIn registry next) :
    Unchanged (Yard.SameIn registry next) (addUnary next previous token yard)
      (addUnary registry previous token yard) := by
  refine .ite ?_ (.error _)
  rw [htoken.operator (by rw [hkind]; rfl)]
  exact .ite (.ok ⟨hyard.output, List.forall_mem_cons.mpr ⟨htoken, hyard.waiting⟩⟩) (.error _)

theorem addOpenParen_sameIn (previous : Option Token) (htoken : token.SameIn registry next)
    (hyard : yard.SameIn registry next) : (addOpenParen previous token yard).SameIn registry next := by
  have hwaiting := List.forall_mem_cons.mpr ⟨htoken, hyard.waiting⟩
  unfold addOpenParen
  split
  · exact ⟨List.forall_mem_cons.mpr ⟨htoken, hyard.output⟩, hwaiting⟩
  · exact ⟨hyard.output, hwaiting⟩

theorem addCloseParen_unchanged (previous : Option Token) (token : Token)
    (hyard : yard.SameIn registry next) :
    Unchanged (Yard.SameIn registry next) (addCloseParen previous token yard)
      (addCloseParen previous token yard) := by
  have hcomplete : Unchanged (Yard.SameIn registry next) (addCloseParen none token yard)
      (addCloseParen none token yard) := by
    have hgroup := releaseGroup_sameIn hyard.output hyard.waiting
    unfold addCloseParen
    generalize releaseGroup yard.output yard.waiting = released at hgroup
    obtain ⟨output, waiting⟩ := released
    obtain ⟨houtput, hwaiting⟩ := hgroup
    rcases waiting with _ | ⟨opening, _ | ⟨top, rest⟩⟩
    · exact .error _
    · exact .ok ⟨houtput, List.forall_mem_nil _⟩
    · obtain ⟨-, hbelow⟩ := List.forall_mem_cons.mp hwaiting
      obtain ⟨htop, hrest⟩ := List.forall_mem_cons.mp hbelow
      exact .ite (.ok ⟨List.forall_mem_cons.mpr ⟨htop, houtput⟩, hrest⟩) (.ok ⟨houtput, hbelow⟩)
  cases previous with
  | none => exact hcomplete
  | some left => exact .ite (.error _) hcomplete

/-- One step does the same with both registries, and leaves tokens of which they say the same. -/
theorem step_unchanged (hproduct : next.operator? productSymbol = registry.operator? productSymbol)
    (previous : Option Token) (htoken : token.SameIn registry next) (hyard : yard.SameIn registry next) :
    Unchanged (Yard.SameIn registry next) (step next previous token yard)
      (step registry previous token yard) := by
  refine (joinOperands_unchanged hproduct previous token hyard).bind fun joined hjoined => ?_
  cases hkind : token.kind with
  | comma => exact addComma_unchanged previous token hjoined
  | operator => exact addOperator_unchanged previous htoken hkind hjoined
  | unaryOperator => exact addUnary_unchanged previous htoken hkind hjoined
  | closeParen => exact addCloseParen_unchanged previous token hjoined
  | openParen => exact .ok (addOpenParen_sameIn previous htoken hjoined)
  | functionName => exact .ok ⟨hjoined.output, List.forall_mem_cons.mpr ⟨htoken, hjoined.waiting⟩⟩
  | number | hexadecimal | text | variableName =>
    exact .ok ⟨List.forall_mem_cons.mpr ⟨htoken, hjoined.output⟩, hjoined.waiting⟩

theorem finish_sameIn (houtput : ∀ token ∈ output, token.SameIn registry next)
    (hwaiting : ∀ token ∈ waiting, token.SameIn registry next) :
    Unchanged (fun rpn => ∀ token ∈ rpn, token.SameIn registry next) (finish output waiting)
      (finish output waiting) := by
  induction waiting generalizing output with
  | nil => exact .ok fun token htoken => houtput token (List.mem_reverse.mp htoken)
  | cons top rest ih =>
    obtain ⟨htop, hrest⟩ := List.forall_mem_cons.mp hwaiting
    exact .ite (.error _) (ih (List.forall_mem_cons.mpr ⟨htop, houtput⟩) hrest)

theorem steps_unchanged (hproduct : next.operator? productSymbol = registry.operator? productSymbol)
    (previous : Option Token) (hyard : yard.SameIn registry next)
    (htokens : ∀ token ∈ tokens, token.SameIn registry next) :
    Unchanged (fun rpn => ∀ token ∈ rpn, token.SameIn registry next) (steps next previous yard tokens)
      (steps registry previous yard tokens) := by
  induction tokens generalizing previous yard with
  | nil => exact finish_sameIn hyard.output hyard.waiting
  | cons token tokens ih =>
    obtain ⟨htoken, htokens⟩ := List.forall_mem_cons.mp htokens
    exact (step_unchanged hproduct previous htoken hyard).bind fun after hafter =>
      ih (some token) hafter htokens

theorem countToken_eq (scopes : Scopes) (htoken : token.SameIn registry next) :
    countToken next scopes token = countToken registry scopes token := by
  unfold countToken
  cases hkind : token.kind with
  | functionName => simp only [htoken.function hkind]
  | number | hexadecimal | text | variableName | operator | unaryOperator | openParen | closeParen
    | comma => rfl

theorem countTokens_eq (scopes : Scopes) (htokens : ∀ token ∈ tokens, token.SameIn registry next) :
    countTokens next scopes tokens = countTokens registry scopes tokens := by
  induction tokens generalizing scopes with
  | nil => rfl
  | cons token tokens ih =>
    obtain ⟨htoken, htokens⟩ := List.forall_mem_cons.mp htokens
    simp only [countTokens, countToken_eq scopes htoken, ih _ htokens]

theorem validate_eq {rpn : List Token} (hrpn : ∀ token ∈ rpn, token.SameIn registry next) :
    validate next rpn = validate registry rpn := by
  simp only [validate, countTokens_eq _ hrpn]

end Rpn

namespace Assembly

variable {registry next : Registry} {token : Token} {tokens : List Token}

theorem step_eq (context : Context) (assembly : Assembly) (htoken : token.SameIn registry next) :
    step next context assembly token = step registry context assembly token := by
  unfold step
  cases hkind : token.kind with
  | operator | unaryOperator =>
    have hoperator := htoken.operator (by rw [hkind]; rfl)
    simp only [operator?, hoperator]
  | functionName => simp only [function?, htoken.function hkind]
  | number | hexadecimal | text | variableName | openParen | closeParen | comma => rfl

theorem steps_eq (context : Context) (assembly : Assembly)
    (htokens : ∀ token ∈ tokens, token.SameIn registry next) :
    steps next context assembly tokens = steps registry context assembly tokens := by
  induction tokens generalizing assembly with
  | nil => rfl
  | cons token tokens ih =>
    obtain ⟨htoken, htokens⟩ := List.forall_mem_cons.mp htokens
    simp only [steps, step_eq context assembly htoken, ih _ htokens]

end Assembly

/-- A text of which a registration says nothing is read as before it. -/
theorem reads_as_before {registry next : Registry} {registration : Registration} {source : String}
    (hnext : registry.register registration = .ok next) (h : registration.Spares registry source) :
    tokenize next source = tokenize registry source ∧
      ∀ tokens, tokenize registry source = .ok tokens →
        Rpn.ofTokens next tokens = Rpn.ofTokens registry tokens ∧
          ∀ rpn, Rpn.ofTokens registry tokens = .ok rpn →
            Rpn.validate next rpn = Rpn.validate registry rpn ∧
              ∀ context, Tree.ofRpn next context rpn = Tree.ofRpn registry context rpn := by
  refine ⟨h.tokenize_eq hnext, fun tokens htokens => ?_⟩
  have hempty : Rpn.Yard.SameIn registry next ⟨[], []⟩ := ⟨List.forall_mem_nil _, List.forall_mem_nil _⟩
  obtain ⟨hlisted, hsame⟩ :=
    Rpn.steps_unchanged (h.product_eq hnext) none hempty (h.sameIn hnext htokens)
  refine ⟨hlisted, fun rpn hrpn => ⟨Rpn.validate_eq (hsame rpn hrpn), fun context => ?_⟩⟩
  rw [Tree.ofRpn, Tree.ofRpn, Assembly.steps_eq context _ (hsame rpn hrpn)]

def doubledStar : Registration := .binary "**" 55 false fun _ _ => .operand 1

theorem negatedFactor_reads_as_before :
    ∃ next, Registry.standard.register doubledStar = .ok next ∧
      tokenize next "2 * -x" = tokenize .standard "2 * -x" ∧
      ∀ tokens, tokenize .standard "2 * -x" = .ok tokens →
        Rpn.ofTokens next tokens = Rpn.ofTokens .standard tokens ∧
          ∀ rpn, Rpn.ofTokens .standard tokens = .ok rpn →
            Rpn.validate next rpn = Rpn.validate .standard rpn ∧
              ∀ context, Tree.ofRpn next context rpn = Tree.ofRpn .standard context rpn := by
  have hspares : doubledStar.Spares .standard "2 * -x" :=
    { product := by decide
      symbol := fun symbol hsymbol => by
        obtain rfl := Option.some.inj hsymbol
        decide
      name := fun _ _ _ _ _ => nofun }
  have hregister : (Registry.standard.register doubledStar).isOk = true := by decide +kernel
  cases hnext : Registry.standard.register doubledStar with
  | error failure =>
    rw [hnext] at hregister
    cases hregister
  | ok next => exact ⟨next, rfl, reads_as_before hnext hspares⟩

end Formula
