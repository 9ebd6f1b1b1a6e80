import Formula.Proofs.Rpn.Yard

/-! # Listing tokens is reading them

Where tokens follow each other as those of a text do, the yard goes along with the reading by
recursive descent: it fails where the reading does, and where a phrase was read it has listed the
phrase and waits for nothing of it any more.
-/
namespace Formula.Rpn

open Reader

variable {registry : Registry}

/-- From `start` the yard comes to list the phrase that `tokens` begin with, and goes on with the
rest. An operand can be missing in the phrase only if nothing is left. -/
structure Continues (registry : Registry) (start : Except Failure (List Token)) (yard : Yard)
    (tokens : List Token) (phrase : Phrase) (rest : List Token) : Prop where
  steps : ∃ last : Token, last.kind = phrase.ending ∧
    start = steps registry (some last) ⟨phrase.listing.reverse ++ yard.output, yard.waiting⟩ rest
  spelling : phrase.spelling ++ rest = tokens
  successive : Successive (some phrase.ending) rest
  finished : phrase.Finished ∨ (rest = [] ∧ 1 ≤ phrase.gaps)

def Simulates (registry : Registry) (start : Except Failure (List Token)) (yard : Yard)
    (tokens : List Token) {bound : Nat} : Option (Phrase × Rest bound) → Prop
  | none => ∃ failure, start = .error failure
  | some (phrase, rest) => Continues registry start yard tokens phrase rest.val

theorem steps_of_step {previous : Option Token} {token : Token} {yard next : Yard}
    (h : step registry previous token yard = .ok next) (tokens : List Token) :
    steps registry previous yard (token :: tokens) = steps registry (some token) next tokens := by
  rw [steps_cons, h]
  rfl

theorem steps_error_of_step {previous : Option Token} {token : Token} {yard : Yard}
    (h : ∃ failure, step registry previous token yard = .error failure) (tokens : List Token) :
    ∃ failure, steps registry previous yard (token :: tokens) = .error failure := by
  obtain ⟨failure, h⟩ := h
  exact ⟨failure, by rw [steps_cons, h]; rfl⟩

namespace Continues

variable {start : Except Failure (List Token)} {yard : Yard} {tokens rest : List Token}
  {phrase : Phrase}

theorem finished_of_ne_nil (h : Continues registry start yard tokens phrase rest)
    (hrest : rest ≠ []) : phrase.Finished :=
  h.finished.resolve_right fun hmissing => hrest hmissing.1

/-- The operator before a phrase may be listed as soon as the phrase ends its operand. -/
theorem release {output waiting : List Token} {top : Token} {op : Operator}
    (h : Continues registry start ⟨output, top :: waiting⟩ tokens phrase rest)
    (hkind : top.kind.isOperator = true) (hop : registry.operator? top.surface = some op)
    (hstops : Stops registry (some op) phrase.ending rest) :
    ∃ last : Token, last.kind = phrase.ending ∧
      start = Rpn.steps registry (some last)
        ⟨top :: (phrase.listing.reverse ++ output), waiting⟩ rest := by
  obtain ⟨last, hlast, hsteps⟩ := h.steps
  refine ⟨last, hlast, hsteps.trans (steps_release (fun hrest => ?_) hkind hop (hlast ▸ hstops))⟩
  exact hlast ▸ phrase.ending_endsOperand (h.finished_of_ne_nil hrest)

variable {previous : Option Token} {output waiting : List Token}

theorem missing (registry : Registry) (previous : Option Token) (yard : Yard) :
    Continues registry (Rpn.steps registry previous yard []) yard [] .missing [] where
  steps := ⟨⟨.closeParen, "", 0⟩, rfl, rfl⟩
  spelling := rfl
  successive := by simp [Phrase.ending, Successive]
  finished := .inr ⟨rfl, Nat.le_refl 1⟩

theorem leaf (hexpecting : Expecting previous) (operand : Leaf)
    (hsuccessive : Successive (previous.map (·.kind)) (operand.token :: rest)) :
    Continues registry (Rpn.steps registry previous ⟨output, waiting⟩ (operand.token :: rest))
      ⟨output, waiting⟩ (operand.token :: rest) (.leaf operand) rest where
  steps := ⟨operand.token, rfl, steps_of_step (step_leaf hexpecting operand) rest⟩
  spelling := rfl
  successive := hsuccessive.2
  finished := .inl trivial

theorem prefixed (hexpecting : Expecting previous) (sign : TokenOf .unaryOperator) {op : Operator}
    (hop : registry.operator? sign.val.surface = some op) (hunary : op.unary = true)
    {operand : Phrase}
    (hoperand : Continues registry
      (Rpn.steps registry (some sign.val) ⟨output, sign.val :: waiting⟩ tokens)
      ⟨output, sign.val :: waiting⟩ tokens operand rest)
    (hstops : Stops registry (some op) operand.ending rest) :
    Continues registry (Rpn.steps registry previous ⟨output, waiting⟩ (sign.val :: tokens))
      ⟨output, waiting⟩ (sign.val :: tokens) (.prefixed sign operand) rest where
  steps := by
    obtain ⟨last, hlast, hsteps⟩ := hoperand.release
      (by simp [sign.property, TokenKind.isOperator]) hop hstops
    refine ⟨last, hlast, (steps_of_step (step_unary hexpecting sign hop hunary) tokens).trans ?_⟩
    simpa [Phrase.listing] using hsteps
  spelling := by simp [Phrase.spelling, hoperand.spelling]
  successive := hoperand.successive
  finished := hoperand.finished

theorem infixed {left right : Phrase} {sign : Sign} {op : Operator} {last : Token}
    {enclosing : Option Operator} {after : List Token} (hlast : last.kind = left.ending)
    (hleft : left.Finished) (hwaiting : Encloses registry enclosing waiting)
    (hjoint : joint? registry left.ending tokens = some (.sign sign op after))
    (hends : ¬ op.Ends enclosing)
    (hright : Continues registry
      (Rpn.steps registry (some sign.token.val)
        ⟨left.listing.reverse ++ output, sign.token.val :: waiting⟩ after)
      ⟨left.listing.reverse ++ output, sign.token.val :: waiting⟩ after right rest)
    (hstops : Stops registry (some op) right.ending rest) :
    Continues registry
      (Rpn.steps registry (some last) ⟨left.listing.reverse ++ output, waiting⟩ tokens)
      ⟨output, waiting⟩ (left.spelling ++ tokens) (.infixed sign left right) rest where
  steps := by
    have hoperand := hlast ▸ left.ending_endsOperand hleft
    obtain ⟨next, hnext, hsteps⟩ := hright.release
      (by simp [sign.token.property, TokenKind.isOperator]) (operator?_of_joint? hjoint) hstops
    refine ⟨next, hnext, (steps_sign hoperand hwaiting (hlast ▸ hjoint) hends).trans ?_⟩
    simpa [Phrase.listing] using hsteps
  spelling := by
    rw [← spelling_of_joint? hjoint, ← hright.spelling]
    simp [Phrase.spelling]
  successive := hright.successive
  finished := hright.finished.imp (⟨hleft, ·⟩) fun hmissing =>
    ⟨hmissing.1, Nat.le_trans hmissing.2 (Nat.le_add_left _ _)⟩

theorem hollow (hexpecting : Expecting previous) {enclosing : Option Operator}
    (hwaiting : Encloses registry enclosing waiting) (opening : TokenOf .openParen)
    (closing : TokenOf .closeParen)
    (hsuccessive : Successive (previous.map (·.kind)) (opening.val :: closing.val :: rest)) :
    Continues registry
      (Rpn.steps registry previous ⟨output, waiting⟩ (opening.val :: closing.val :: rest))
      ⟨output, waiting⟩ (opening.val :: closing.val :: rest) (.hollow opening closing) rest where
  steps := by
    refine ⟨closing.val, closing.property, ?_⟩
    rw [steps_of_step (step_group hexpecting opening),
      steps_of_step (step_close_group (.inr opening.property) closing opening hwaiting)]
    rfl
  spelling := rfl
  successive := by simpa [Phrase.ending, closing.property] using hsuccessive.2.2
  finished := .inl trivial

theorem group (hexpecting : Expecting previous) {enclosing : Option Operator}
    (hwaiting : Encloses registry enclosing waiting) (opening : TokenOf .openParen)
    (closing : TokenOf .closeParen) {inner : Phrase}
    (hinner : Continues registry
      (Rpn.steps registry (some opening.val) ⟨output, opening.val :: waiting⟩ tokens)
      ⟨output, opening.val :: waiting⟩ tokens inner (closing.val :: rest)) :
    Continues registry (Rpn.steps registry previous ⟨output, waiting⟩ (opening.val :: tokens))
      ⟨output, waiting⟩ (opening.val :: tokens) (.group opening inner closing) rest where
  steps := by
    obtain ⟨last, hlast, hsteps⟩ := hinner.steps
    have hends := hlast ▸ inner.ending_endsOperand (hinner.finished_of_ne_nil (by simp))
    refine ⟨closing.val, closing.property, ?_⟩
    rw [steps_of_step (step_group hexpecting opening), hsteps,
      steps_of_step (step_close_group (.inl hends) closing opening hwaiting)]
    rfl
  spelling := by simp [Phrase.spelling, ← hinner.spelling]
  successive := by simpa [Phrase.ending, closing.property] using hinner.successive.2
  finished := .inl (hinner.finished_of_ne_nil (by simp))

end Continues

structure Closes (registry : Registry) (start : Except Failure (List Token)) (yard : Yard)
    (name : TokenOf .functionName) (tokens : List Token) (arguments : Arguments)
    (closing : TokenOf .closeParen) (rest : List Token) : Prop where
  steps : start = steps registry (some closing.val)
    ⟨name.val :: (arguments.listing.reverse ++ yard.output), yard.waiting⟩ rest
  spelling : arguments.spelling ++ closing.val :: rest = tokens
  successive : Successive (some .closeParen) rest
  finished : arguments.Finished

namespace Closes

variable {start : Except Failure (List Token)} {tokens rest output waiting : List Token}
  {opening : TokenOf .openParen} {name : TokenOf .functionName} {closing : TokenOf .closeParen}
  {arguments : Arguments}

theorem last {phrase : Phrase}
    (hphrase : Continues registry start ⟨output, opening.val :: name.val :: waiting⟩ tokens phrase
      (closing.val :: rest)) :
    Closes registry start ⟨output, waiting⟩ name tokens (.last phrase) closing rest where
  steps := by
    obtain ⟨last, hlast, hsteps⟩ := hphrase.steps
    have hends := hlast ▸ phrase.ending_endsOperand (hphrase.finished_of_ne_nil (by simp))
    rw [hsteps, steps_of_step (step_close_call (.inl hends) closing opening name)]
    rfl
  spelling := hphrase.spelling
  successive := by simpa [closing.property] using hphrase.successive.2
  finished := hphrase.finished_of_ne_nil (by simp)

theorem more {phrase : Phrase} {comma : TokenOf .comma} {after : List Token}
    (hphrase : Continues registry start ⟨output, opening.val :: name.val :: waiting⟩ tokens phrase
      (comma.val :: after))
    (harguments : Closes registry
      (Rpn.steps registry (some comma.val)
        ⟨phrase.listing.reverse ++ output, opening.val :: name.val :: waiting⟩ after)
      ⟨phrase.listing.reverse ++ output, waiting⟩ name after arguments closing rest) :
    Closes registry start ⟨output, waiting⟩ name tokens
      (.more phrase comma arguments) closing rest where
  steps := by
    obtain ⟨last, hlast, hsteps⟩ := hphrase.steps
    have hends := hlast ▸ phrase.ending_endsOperand (hphrase.finished_of_ne_nil (by simp))
    rw [hsteps, steps_of_step (step_comma hends comma opening name), harguments.steps]
    simp [Arguments.listing]
  spelling := by
    rw [← hphrase.spelling, ← harguments.spelling]
    simp [Arguments.spelling]
  successive := harguments.successive
  finished := ⟨hphrase.finished_of_ne_nil (by simp), harguments.finished⟩

end Closes

namespace Continues

variable {previous : Option Token} {output waiting tokens rest : List Token}
  {closing : TokenOf .closeParen} (name : TokenOf .functionName) (opening : TokenOf .openParen)

/-- A name and its parenthesis put the mark of the call on the list. -/
theorem steps_opened (hexpecting : Expecting previous) :
    Rpn.steps registry previous ⟨output, waiting⟩ (name.val :: opening.val :: tokens) =
      Rpn.steps registry (some opening.val)
        ⟨opening.val :: output, opening.val :: name.val :: waiting⟩ tokens := by
  rw [steps_of_step (step_name hexpecting name), steps_of_step (step_mark name opening)]

theorem bareCall (closing : TokenOf .closeParen) (hexpecting : Expecting previous)
    (hsuccessive : Successive (previous.map (·.kind))
      (name.val :: opening.val :: closing.val :: rest)) :
    Continues registry
      (Rpn.steps registry previous ⟨output, waiting⟩
        (name.val :: opening.val :: closing.val :: rest))
      ⟨output, waiting⟩ (name.val :: opening.val :: closing.val :: rest)
      (.bareCall name opening closing) rest where
  steps := by
    refine ⟨closing.val, closing.property, ?_⟩
    rw [steps_opened name opening hexpecting,
      steps_of_step (step_close_call (.inr opening.property) closing opening name)]
    rfl
  spelling := rfl
  successive := by simpa [Phrase.ending, closing.property] using hsuccessive.2.2.2
  finished := .inl trivial

theorem call (hexpecting : Expecting previous) {arguments : Arguments}
    (harguments : Closes registry
      (Rpn.steps registry (some opening.val)
        ⟨opening.val :: output, opening.val :: name.val :: waiting⟩ tokens)
      ⟨opening.val :: output, waiting⟩ name tokens arguments closing rest) :
    Continues registry
      (Rpn.steps registry previous ⟨output, waiting⟩ (name.val :: opening.val :: tokens))
      ⟨output, waiting⟩ (name.val :: opening.val :: tokens)
      (.call name opening arguments closing) rest where
  steps := by
    refine ⟨closing.val, closing.property, ?_⟩
    rw [steps_opened name opening hexpecting, harguments.steps]
    simp [Phrase.listing]
  spelling := by simp [Phrase.spelling, ← harguments.spelling]
  successive := harguments.successive
  finished := .inl harguments.finished

end Continues

def SimulatesCall (registry : Registry) (start : Except Failure (List Token)) (yard : Yard)
    (name : TokenOf .functionName) (tokens : List Token) {bound : Nat} :
    Option (Arguments × TokenOf .closeParen × Rest bound) → Prop
  | none => ∃ failure, start = .error failure
  | some (arguments, closing, rest) =>
    Closes registry start yard name tokens arguments closing rest.val

structure Ready (registry : Registry) (previous : Option Token) (enclosing : Option Operator)
    (waiting tokens : List Token) : Prop where
  expecting : Expecting previous
  opened : previous.map (·.kind) = some .openParen →
    ∀ token ∈ tokens.head?, token.kind ≠ .closeParen
  start : previous = none → waiting = []
  encloses : Encloses registry enclosing waiting
  successive : Successive (previous.map (·.kind)) tokens

def FollowsOperand (registry : Registry) (token : Token) (tokens : List Token) : Prop :=
  ∀ previous enclosing output waiting, Ready registry previous enclosing waiting (token :: tokens) →
    Simulates registry (steps registry previous ⟨output, waiting⟩ (token :: tokens))
      ⟨output, waiting⟩ (token :: tokens) (readOperand registry token tokens)

def FollowsExpression (registry : Registry) (tokens : List Token) : Prop :=
  ∀ previous enclosing output waiting, Ready registry previous enclosing waiting tokens →
    Simulates registry (steps registry previous ⟨output, waiting⟩ tokens) ⟨output, waiting⟩ tokens
      (readExpression registry enclosing tokens)

def FollowsFurther (registry : Registry) (tokens : List Token) : Prop :=
  ∀ (last : Token) (left : Phrase) (enclosing : Option Operator) (output waiting : List Token),
    last.kind = left.ending → left.Finished ∨ (tokens = [] ∧ 1 ≤ left.gaps) →
    Encloses registry enclosing waiting → Successive (some left.ending) tokens →
    Simulates registry (steps registry (some last) ⟨left.listing.reverse ++ output, waiting⟩ tokens)
      ⟨output, waiting⟩ (left.spelling ++ tokens) (readFurther registry enclosing left tokens)

def FollowsArguments (registry : Registry) (tokens : List Token) : Prop :=
  ∀ (previous : Token) (opening : TokenOf .openParen) (name : TokenOf .functionName)
    (output waiting : List Token),
    Ready registry (some previous) none (opening.val :: name.val :: waiting) tokens →
    SimulatesCall registry
      (steps registry (some previous) ⟨output, opening.val :: name.val :: waiting⟩ tokens)
      ⟨output, waiting⟩ name tokens (readArguments registry tokens)

theorem Simulates.error {start other : Except Failure (List Token)} {yard : Yard}
    {tokens : List Token} {bound : Nat} {result : Option (Phrase × Rest bound)}
    (hresult : result = none) (hstart : start = other)
    (h : Simulates registry other yard tokens result) : ∃ failure, start = .error failure := by
  subst hresult
  obtain ⟨failure, h⟩ := h
  exact ⟨failure, hstart.trans h⟩

theorem followsUnary {surface : String} {offset : Nat} {tokens : List Token}
    (hexpression : FollowsExpression registry tokens) :
    FollowsOperand registry ⟨.unaryOperator, surface, offset⟩ tokens := by
  intro previous enclosing output waiting hready
  let sign : TokenOf .unaryOperator := ⟨⟨.unaryOperator, surface, offset⟩, rfl⟩
  have hunknown (h : ∀ op, registry.operator? surface = some op → op.unary = false) :=
    steps_error_of_step (step_unary_error hready.expecting sign h ⟨output, waiting⟩) tokens
  rw [readOperand]
  dsimp only
  cases hop : registry.operator? surface with
  | none => exact hunknown fun op hregistered => by cases hop.symm.trans hregistered
  | some op =>
    cases hunary : op.unary with
    | false =>
      simp only [hunary, Bool.false_eq_true, ↓reduceIte]
      refine hunknown fun other hregistered => ?_
      cases hop.symm.trans hregistered
      exact hunary
    | true =>
      have hstep : steps registry previous ⟨output, waiting⟩ (sign.val :: tokens) =
          steps registry (some sign.val) ⟨output, sign.val :: waiting⟩ tokens :=
        steps_of_step (step_unary hready.expecting sign hop hunary) tokens
      have hoperand := hexpression (some sign.val) (some op) output (sign.val :: waiting)
        ⟨rfl, nofun, nofun, .operator waiting rfl hop, hready.successive.2⟩
      simp only [hunary, ↓reduceIte]
      cases hread : readExpression registry (some op) tokens with
      | none => exact hoperand.error hread hstep
      | some result =>
        obtain ⟨operand, rest, hrest⟩ := result
        rw [hread] at hoperand
        exact Continues.prefixed hready.expecting sign hop hunary hoperand
          (readExpression_stops hread)

theorem followsGroup {surface : String} {offset : Nat} {tokens : List Token}
    (hexpression : FollowsExpression registry tokens) :
    FollowsOperand registry ⟨.openParen, surface, offset⟩ tokens := by
  intro previous enclosing output waiting hready
  let opening : TokenOf .openParen := ⟨⟨.openParen, surface, offset⟩, rfl⟩
  have hstep : steps registry previous ⟨output, waiting⟩ (opening.val :: tokens) =
      steps registry (some opening.val) ⟨output, opening.val :: waiting⟩ tokens :=
    steps_of_step (step_group hready.expecting opening) tokens
  rw [readOperand]
  dsimp only
  cases tokens with
  | nil =>
    rw [hstep]
    exact steps_unclosed _ _ opening _
  | cons first after =>
    by_cases hfirst : first.kind = .closeParen
    · simp only [hfirst, ↓reduceDIte]
      exact Continues.hollow hready.expecting hready.encloses opening ⟨first, hfirst⟩
        hready.successive
    · have hinner := hexpression (some opening.val) none output (opening.val :: waiting)
        ⟨rfl, fun _ token htoken => by cases htoken; exact hfirst, nofun, .group opening waiting,
          hready.successive.2⟩
      simp only [hfirst, ↓reduceDIte]
      cases hread : readExpression registry none (first :: after) with
      | none => exact hinner.error hread hstep
      | some result =>
        have hstops := readExpression_stops hread
        obtain ⟨inner, rest, hrest⟩ := result
        rw [hread] at hinner
        have hinner : Continues _ _ _ _ inner rest := hinner
        obtain ⟨last, hlast, hsteps⟩ := hinner.steps
        cases rest with
        | nil =>
          rw [hstep, hsteps]
          exact steps_unclosed _ _ opening _
        | cons closing rest =>
          by_cases hclosing : closing.kind = .closeParen
          · simp only [Option.bind_eq_bind, Option.bind_some, hclosing, ↓reduceDIte]
            exact Continues.group hready.expecting hready.encloses opening
              ⟨closing, hclosing⟩ hinner
          · have hends := hlast ▸ inner.ending_endsOperand (hinner.finished_of_ne_nil (by simp))
            have hcomma := (kind_of_stops hstops).resolve_right hclosing
            simp only [Option.bind_eq_bind, Option.bind_some, hclosing, ↓reduceDIte]
            rw [hstep, hsteps]
            exact steps_error_of_step (step_comma_stray hends hcomma hready.encloses
              (.inr ⟨opening, rfl⟩)) rest

theorem followsCall {surface : String} {offset : Nat} {tokens : List Token}
    (harguments : ∀ more : List Token, more.length < tokens.length →
      FollowsArguments registry more) :
    FollowsOperand registry ⟨.functionName, surface, offset⟩ tokens := by
  intro previous enclosing output waiting hready
  let name : TokenOf .functionName := ⟨⟨.functionName, surface, offset⟩, rfl⟩
  have hsuccessive := hready.successive
  rw [readOperand]
  match tokens with
  | [] => exact absurd rfl hsuccessive.2
  | opening :: more =>
    have hopening : opening.kind = .openParen := hsuccessive.2.1.opened rfl
    let mark : TokenOf .openParen := ⟨opening, hopening⟩
    have hopened : steps registry previous ⟨output, waiting⟩ (name.val :: mark.val :: more) =
        steps registry (some mark.val) ⟨mark.val :: output, mark.val :: name.val :: waiting⟩ more :=
      Continues.steps_opened name mark hready.expecting
    match more with
    | [] =>
      rw [hopened]
      exact steps_unclosed _ _ mark _
    | first :: after =>
      dsimp only
      by_cases hfirst : first.kind = .closeParen
      · simp only [hopening, hfirst, ↓reduceDIte]
        exact Continues.bareCall name mark ⟨first, hfirst⟩ hready.expecting hsuccessive
      · have hcall := harguments (first :: after) (by simp) opening mark name
          (mark.val :: output) waiting
          ⟨by simp [Expecting, follows, hopening, TokenKind.precedesUnary], fun _ token htoken => by
            cases htoken; exact hfirst, nofun, .group mark (name.val :: waiting), hsuccessive.2.2⟩
        simp only [hopening, hfirst, ↓reduceDIte]
        cases hread : readArguments registry (first :: after) with
        | none =>
          rw [hread] at hcall
          obtain ⟨failure, hcall⟩ := hcall
          exact ⟨failure, hopened.trans hcall⟩
        | some result =>
          obtain ⟨arguments, closing, rest, hrest⟩ := result
          rw [hread] at hcall
          exact Continues.call name mark hready.expecting hcall

/-- The yard goes along with an operand if it does with what is read inside. -/
theorem followsOperand_of {token : Token} {tokens : List Token}
    (hexpression : ∀ more : List Token, more.length ≤ tokens.length →
      FollowsExpression registry more)
    (harguments : ∀ more : List Token, more.length < tokens.length →
      FollowsArguments registry more) :
    FollowsOperand registry token tokens := by
  obtain ⟨kind, surface, offset⟩ := token
  cases kind with
  | unaryOperator => exact followsUnary (hexpression tokens (Nat.le_refl _))
  | openParen => exact followsGroup (hexpression tokens (Nat.le_refl _))
  | functionName => exact followsCall harguments
  | number | hexadecimal | text | variableName =>
    intro previous enclosing output waiting hready
    rw [readOperand]
    exact Continues.leaf hready.expecting ⟨_, rfl⟩ hready.successive
  | operator =>
    intro previous enclosing output waiting hready
    have hunary := (hready.successive.1.unary rfl).mpr (expecting_iff.mp hready.expecting)
    cases hunary
  | comma =>
    intro previous enclosing output waiting hready
    rw [readOperand]
    exact steps_error_of_step (step_comma_error hready.expecting rfl _) tokens
  | closeParen =>
    intro previous enclosing output waiting hready
    rw [readOperand]
    refine steps_error_of_step (step_close_error hready.expecting
      (fun hprevious => ?_) rfl hready.start) tokens
    exact hready.opened hprevious _ rfl rfl

theorem followsExpression_of {token : Token} {tokens : List Token}
    (hoperand : FollowsOperand registry token tokens)
    (hfurther : ∀ rest : List Token, rest.length ≤ tokens.length → FollowsFurther registry rest) :
    FollowsExpression registry (token :: tokens) := by
  intro previous enclosing output waiting hready
  have hfirst := hoperand previous enclosing output waiting hready
  rw [readExpression]
  cases hread : readOperand registry token tokens with
  | none => exact hfirst.error hread rfl
  | some result =>
    obtain ⟨operand, rest, hrest⟩ := result
    rw [hread] at hfirst
    obtain ⟨⟨last, hlast, hsteps⟩, hspelling, hsuccessive, hfinished⟩ := hfirst
    have hnext := hfurther rest hrest last operand enclosing output waiting hlast hfinished
      hready.encloses hsuccessive
    simp only [Option.bind_eq_bind, Option.bind_some]
    cases hmore : readFurther registry enclosing operand rest with
    | none => exact hnext.error hmore hsteps
    | some result =>
      obtain ⟨phrase, after, hafter⟩ := result
      rw [hmore, hspelling, ← hsteps] at hnext
      exact hnext

theorem followsFurther_of {tokens : List Token}
    (hexpression : ∀ more : List Token, more.length ≤ tokens.length →
      FollowsExpression registry more)
    (hfurther : ∀ rest : List Token, rest.length < tokens.length → FollowsFurther registry rest) :
    FollowsFurther registry tokens := by
  intro last left enclosing output waiting hlast hleft hwaiting hsuccessive
  have hself : Continues registry
      (steps registry (some last) ⟨left.listing.reverse ++ output, waiting⟩ tokens)
      ⟨output, waiting⟩ (left.spelling ++ tokens) left tokens :=
    ⟨⟨last, hlast, rfl⟩, rfl, hsuccessive, hleft⟩
  rw [readFurther]
  split
  next hjoint => exact hself
  next sign op after hjoint =>
    have hafter := length_of_joint? hjoint
    have hfinished := hself.finished_of_ne_nil (List.length_pos_iff.mp hafter.2)
    dsimp only
    split
    next => exact hself
    next hends =>
      have hright := hexpression after hafter.1 (some sign.token.val) (some op)
        (left.listing.reverse ++ output) (sign.token.val :: waiting)
        ⟨by simp [Expecting, follows, sign.token.property, TokenKind.precedesUnary],
          by simp [sign.token.property], by simp,
          .operator waiting (by simp [sign.token.property, TokenKind.isOperator])
            (operator?_of_joint? hjoint),
          by simpa [sign.token.property] using successive_of_joint? hsuccessive hjoint⟩
      cases hread : readExpression registry (some op) after with
      | none =>
        have hoperand := hlast ▸ left.ending_endsOperand hfinished
        exact hright.error hread (steps_sign hoperand hwaiting (hlast ▸ hjoint) hends)
      | some result =>
        have hstops := readExpression_stops hread
        obtain ⟨right, rest, hrest⟩ := result
        rw [hread] at hright
        have hinfixed := Continues.infixed hlast hfinished hwaiting hjoint hends hright hstops
        obtain ⟨next, hnext, hsteps⟩ := hinfixed.steps
        have hmore := hfurther rest (by omega) next (.infixed sign left right) enclosing output
          waiting hnext hinfixed.finished hwaiting hinfixed.successive
        simp only [Option.bind_eq_bind, Option.bind_some]
        cases hread : readFurther registry enclosing (.infixed sign left right) rest with
        | none => exact hmore.error hread hsteps
        | some result =>
          obtain ⟨phrase, last, hlast⟩ := result
          rw [hread, hinfixed.spelling, ← hsteps] at hmore
          exact hmore
  next hjoint =>
    have hne : tokens ≠ [] := fun hnil => by simp [hnil, joint?] at hjoint
    have hoperand := hlast ▸ left.ending_endsOperand (hself.finished_of_ne_nil hne)
    exact steps_unjoined hoperand (hlast ▸ hsuccessive) (hlast ▸ hjoint) _

theorem followsArguments_of {tokens : List Token} (hexpression : FollowsExpression registry tokens)
    (harguments : ∀ more : List Token, more.length < tokens.length →
      FollowsArguments registry more) :
    FollowsArguments registry tokens := by
  intro previous opening name output waiting hready
  have hphrase := hexpression (some previous) none output (opening.val :: name.val :: waiting)
    hready
  rw [readArguments]
  cases hread : readExpression registry none tokens with
  | none => exact hphrase.error hread rfl
  | some result =>
    have hstops := readExpression_stops hread
    obtain ⟨phrase, rest, hrest⟩ := result
    rw [hread] at hphrase
    have hphrase : Continues _ _ _ _ phrase rest := hphrase
    obtain ⟨last, hlast, hsteps⟩ := hphrase.steps
    cases rest with
    | nil =>
      rw [hsteps]
      exact steps_unclosed _ _ opening _
    | cons token rest =>
      have hoperand := hlast ▸ phrase.ending_endsOperand (hphrase.finished_of_ne_nil (by simp))
      simp only [Option.bind_eq_bind, Option.bind_some]
      by_cases hcomma : token.kind = .comma
      · let comma : TokenOf .comma := ⟨token, hcomma⟩
        have hlength : rest.length < tokens.length := by
          rw [List.length_cons] at hrest
          omega
        have hmore := harguments rest hlength token opening name
          (phrase.listing.reverse ++ output) waiting
          ⟨by simp [Expecting, follows, hcomma, TokenKind.precedesUnary], by simp [hcomma], by simp,
            .group opening (name.val :: waiting), hphrase.successive.2⟩
        simp only [hcomma, ↓reduceDIte]
        cases hread : readArguments registry rest with
        | none =>
          rw [hread] at hmore
          obtain ⟨failure, hmore⟩ := hmore
          rw [hsteps]
          exact ⟨failure, (steps_of_step (step_comma hoperand comma opening name) rest).trans hmore⟩
        | some result =>
          obtain ⟨arguments, closing, after, hafter⟩ := result
          rw [hread] at hmore
          exact Closes.more hphrase hmore
      · have hclosing := (kind_of_stops hstops).resolve_left hcomma
        simp only [hclosing, ↓reduceDIte]
        exact Closes.last hphrase

/-- The yard goes along with reading, whatever the tokens. -/
theorem follows_reading (registry : Registry) (tokens : List Token) :
    FollowsExpression registry tokens ∧ FollowsFurther registry tokens ∧
      FollowsArguments registry tokens := by
  induction hlength : tokens.length using Nat.strongRecOn generalizing tokens with
  | _ length ih =>
    -- Reading on after an operand and reading arguments start with expressions of the same length.
    have hexpression : ∀ more : List Token, more.length ≤ length →
        FollowsExpression registry more := by
      intro more hmore
      cases more with
      | nil =>
        intro previous enclosing output waiting hready
        rw [readExpression]
        exact Continues.missing registry previous ⟨output, waiting⟩
      | cons token more =>
        refine followsExpression_of (followsOperand_of ?_ ?_) ?_
        · exact fun other hother => (ih _ (Nat.lt_of_le_of_lt hother hmore) other rfl).1
        · exact fun other hother => (ih _ (Nat.lt_trans hother hmore) other rfl).2.2
        · exact fun rest hrest => (ih _ (Nat.lt_of_le_of_lt hrest hmore) rest rfl).2.1
    subst hlength
    refine ⟨hexpression tokens (Nat.le_refl _), followsFurther_of hexpression ?_,
      followsArguments_of (hexpression tokens (Nat.le_refl _)) ?_⟩
    · exact fun rest hrest => (ih _ hrest rest rfl).2.1
    · exact fun more hmore => (ih _ hmore more rfl).2.2

/-- Tokens that may follow each other are listed if and only if they can be
read, as what was read. -/
theorem ofTokens_readAll (registry : Registry) {tokens : List Token}
    (hsuccessive : Successive none tokens) :
    (readAll registry tokens = none ∧ ∃ failure, ofTokens registry tokens = .error failure) ∨
      ∃ phrase, readAll registry tokens = some phrase ∧
        ofTokens registry tokens = .ok phrase.listing ∧ phrase.spelling = tokens ∧
        (phrase.Finished ∨ 1 ≤ phrase.gaps) := by
  have hread := (follows_reading registry tokens).1 none none [] []
    ⟨rfl, nofun, fun _ => rfl, .bottom, hsuccessive⟩
  unfold readAll ofTokens
  cases hresult : readExpression registry none tokens with
  | none =>
    rw [hresult] at hread
    exact .inl ⟨rfl, hread⟩
  | some result =>
    have hstops := readExpression_stops hresult
    obtain ⟨phrase, rest, hrest⟩ := result
    rw [hresult] at hread
    obtain ⟨⟨last, hlast, hsteps⟩, hspelling, -, hfinished⟩ := hread
    cases rest with
    | nil =>
      refine .inr ⟨phrase, rfl, ?_, by simpa using hspelling, hfinished.imp_right And.right⟩
      rw [hsteps]
      simp [steps, finish]
    | cons token rest =>
      refine .inl ⟨rfl, ?_⟩
      rw [hsteps]
      have hoperand := hlast ▸ phrase.ending_endsOperand (hfinished.resolve_right (by simp))
      rcases kind_of_stops hstops with hcomma | hclosing
      · exact steps_error_of_step (step_comma_stray hoperand hcomma .bottom (.inl rfl)) rest
      · exact steps_error_of_step (step_close_unopened hoperand ⟨token, hclosing⟩) rest

end Formula.Rpn
