import Formula.Proofs.Rpn.Reader
import Formula.Proofs.Token.Succession

/-! # The yard lists what is read

Listing tokens with one yard for all that waits agrees with reading them by recursive descent. The
operators of a phrase may wait until the phrase is over, but then they are listed before anything
else happens: a yard that has listed them already goes on in the same way.
-/
namespace Formula.Rpn

open Reader

variable {registry : Registry}

def Expecting (previous : Option Token) : Prop := follows previous TokenKind.precedesUnary = true

theorem expecting_iff {previous : Option Token} :
    Expecting previous ↔ (previous.map (·.kind)).all TokenKind.precedesUnary = true := by
  cases previous <;> rfl

theorem endsOperand_eq_false {kind : TokenKind} (h : kind.precedesUnary = true) :
    kind.endsOperand = false := by
  cases kind <;> first | rfl | cases h

theorem precedesUnary_eq_false {kind : TokenKind} (h : kind.endsOperand = true) :
    kind.precedesUnary = false := by
  cases kind <;> first | rfl | cases h

@[simp] theorem steps_cons (previous : Option Token) (yard : Yard) (token : Token)
    (tokens : List Token) :
    steps registry previous yard (token :: tokens) =
      (step registry previous token yard).bind fun yard =>
        steps registry (some token) yard tokens := rfl

/-- After a token that ends no operand nothing is joined. -/
theorem joinOperands_some {previous token : Token} (h : previous.kind.endsOperand = false)
    (yard : Yard) : joinOperands registry (some previous) token yard = .ok yard := by
  simp [joinOperands, h]

/-- Where an operand has to come, nothing is joined. -/
theorem joinOperands_expecting {previous : Option Token} (h : Expecting previous) (token : Token)
    (yard : Yard) : joinOperands registry previous token yard = .ok yard := by
  cases previous with
  | none => rfl
  | some previous => exact joinOperands_some (endsOperand_eq_false h) yard

section Expecting

variable {previous : Option Token} {output waiting : List Token}

theorem step_leaf (h : Expecting previous) (leaf : Leaf) :
    step registry previous leaf.token ⟨output, waiting⟩ = .ok ⟨leaf.token :: output, waiting⟩ := by
  obtain ⟨⟨kind, surface, offset⟩, isLeaf⟩ := leaf
  unfold step
  rw [joinOperands_expecting h]
  cases kind <;> first | rfl | exact absurd isLeaf (by simp [TokenKind.isLeaf])

theorem step_name (h : Expecting previous) (name : TokenOf .functionName) :
    step registry previous name.val ⟨output, waiting⟩ = .ok ⟨output, name.val :: waiting⟩ := by
  obtain ⟨⟨kind, surface, offset⟩, hkind⟩ := name
  cases hkind
  unfold step
  rw [joinOperands_expecting h]
  rfl

theorem step_unary (h : Expecting previous) (sign : TokenOf .unaryOperator) {op : Operator}
    (hop : registry.operator? sign.val.surface = some op) (hunary : op.unary = true) :
    step registry previous sign.val ⟨output, waiting⟩ = .ok ⟨output, sign.val :: waiting⟩ := by
  obtain ⟨⟨kind, surface, offset⟩, hkind⟩ := sign
  cases hkind
  unfold step
  rw [joinOperands_expecting h]
  simp only [Expecting] at h
  simp [bind, Except.bind, addUnary, h, hop, hunary]

theorem step_unary_error (h : Expecting previous) (sign : TokenOf .unaryOperator)
    (hop : ∀ op, registry.operator? sign.val.surface = some op → op.unary = false) (yard : Yard) :
    ∃ failure, step registry previous sign.val yard = .error failure := by
  obtain ⟨⟨kind, surface, offset⟩, hkind⟩ := sign
  cases hkind
  have hnone : (registry.operator? surface).any (·.unary) = false := by
    cases hregistered : registry.operator? surface with
    | none => rfl
    | some op => exact hop op hregistered
  unfold step
  rw [joinOperands_expecting h]
  simp only [Expecting] at h
  exact ⟨_, by simp [bind, Except.bind, addUnary, h, hnone]; rfl⟩

/-- A parenthesis that opens after anything but a function's name opens a group. -/
theorem step_group (h : Expecting previous) (opening : TokenOf .openParen) :
    step registry previous opening.val ⟨output, waiting⟩ =
      .ok ⟨output, opening.val :: waiting⟩ := by
  obtain ⟨⟨kind, surface, offset⟩, hkind⟩ := opening
  cases hkind
  have hname : (previous.any fun t => t.kind == .functionName) = false := by
    cases previous with
    | none => rfl
    | some previous =>
      obtain ⟨kind, _, _⟩ := previous
      cases kind <;> first | rfl | cases h
  unfold step
  rw [joinOperands_expecting h]
  simp [bind, Except.bind, pure, Except.pure, addOpenParen, hname]

/-- A parenthesis that opens after a function's name is listed as the mark of the call. -/
theorem step_mark (name : TokenOf .functionName) (opening : TokenOf .openParen) :
    step registry (some name.val) opening.val ⟨output, waiting⟩ =
      .ok ⟨opening.val :: output, opening.val :: waiting⟩ := by
  obtain ⟨⟨kind, surface, offset⟩, hkind⟩ := opening
  cases hkind
  have hname : name.val.kind.endsOperand = false := by rw [name.property]; rfl
  unfold step
  rw [joinOperands_some hname]
  simp [bind, Except.bind, pure, Except.pure, addOpenParen, name.property]

theorem step_comma_error (h : Expecting previous) {comma : Token} (hkind : comma.kind = .comma)
    (yard : Yard) : ∃ failure, step registry previous comma yard = .error failure := by
  obtain ⟨kind, surface, offset⟩ := comma
  cases hkind
  unfold step
  rw [joinOperands_expecting h]
  simp only [Expecting] at h
  exact ⟨_, by simp [bind, Except.bind, addComma, h]; rfl⟩

/-- Nothing closes where an operand has to come, unless a parenthesis opened just before. -/
theorem step_close_error (h : Expecting previous) (hopen : previous.map (·.kind) ≠ some .openParen)
    {closing : Token} (hkind : closing.kind = .closeParen)
    (hstart : previous = none → waiting = []) :
    ∃ failure, step registry previous closing ⟨output, waiting⟩ = .error failure := by
  obtain ⟨kind, surface, offset⟩ := closing
  cases hkind
  unfold step
  rw [joinOperands_expecting h]
  cases previous with
  | none =>
    obtain rfl := hstart rfl
    exact ⟨_, rfl⟩
  | some previous =>
    obtain ⟨kind, surface, offset⟩ := previous
    cases kind <;> first | exact ⟨_, rfl⟩ | exact absurd rfl hopen | cases h

end Expecting

/-- What waits below an expression that is read within the operand of an operator, or of none. -/
inductive Encloses (registry : Registry) : Option Operator → List Token → Prop
  | bottom : Encloses registry none []
  | group (opening : TokenOf .openParen) (below : List Token) :
      Encloses registry none (opening.val :: below)
  | operator {top : Token} {op : Operator} (below : List Token) (hkind : top.kind.isOperator = true)
      (hop : registry.operator? top.surface = some op) : Encloses registry (some op) (top :: below)

theorem yieldsTo_iff {op waiting : Operator} :
    yieldsTo op waiting = true ↔ op.Ends (some waiting) := by
  simp [yieldsTo, Operator.Ends]

theorem releaseFor_encloses {op : Operator} {enclosing : Option Operator} {waiting : List Token}
    (hwaiting : Encloses registry enclosing waiting) (hends : ¬ op.Ends enclosing)
    (output : List Token) : releaseFor registry op output waiting = .ok ⟨output, waiting⟩ := by
  cases hwaiting with
  | bottom => rfl
  | group opening below =>
    obtain ⟨⟨kind, surface, offset⟩, hkind⟩ := opening
    cases hkind
    rfl
  | operator below hkind hop =>
    rw [← yieldsTo_iff] at hends
    simp [releaseFor, hkind, hop, hends]

theorem releaseFor_ends {op enclosing : Operator} {top : Token} (hkind : top.kind.isOperator = true)
    (hop : registry.operator? top.surface = some enclosing) (hends : op.Ends (some enclosing))
    (output waiting : List Token) :
    releaseFor registry op output (top :: waiting) =
      releaseFor registry op (top :: output) waiting := by
  rw [releaseFor]
  simp [hkind, hop, yieldsTo_iff.mpr hends]

theorem releaseGroup_operator {top : Token} (hkind : top.kind.isOperator = true)
    (output waiting : List Token) :
    releaseGroup output (top :: waiting) = releaseGroup (top :: output) waiting := by
  have hopen : top.kind ≠ .openParen := fun hopen => by simp [hopen, TokenKind.isOperator] at hkind
  rw [releaseGroup, if_neg hopen]

@[simp] theorem releaseGroup_opening (opening : TokenOf .openParen) (output waiting : List Token) :
    releaseGroup output (opening.val :: waiting) = ⟨output, opening.val :: waiting⟩ := by
  rw [releaseGroup, if_pos opening.property]

/-- A parenthesis that nothing closes is refused at the end. -/
theorem steps_unclosed (previous : Option Token) (output : List Token)
    (opening : TokenOf .openParen) (waiting : List Token) :
    ∃ failure, steps registry previous ⟨output, opening.val :: waiting⟩ [] = .error failure := by
  simp only [steps]
  rw [finish, if_pos (.inl opening.property)]
  exact ⟨_, rfl⟩

section Joined

variable {last : Token} {output waiting : List Token}

theorem follows_operand (h : last.kind.endsOperand = true) :
    follows (some last) (fun kind => kind == .comma || kind == .openParen) = false := by
  obtain ⟨kind, surface, offset⟩ := last
  cases kind <;> first | rfl | cases h

/-- After an operand a written operator releases what it ends, and waits. -/
theorem step_written (hlast : last.kind.endsOperand = true) (sign : TokenOf .operator)
    {op : Operator} (hop : registry.operator? sign.val.surface = some op)
    (hunary : op.unary = false) (yard : Yard) :
    step registry (some last) sign.val yard =
      (releaseFor registry op yard.output yard.waiting).bind fun yard =>
        .ok { yard with waiting := sign.val :: yard.waiting } := by
  obtain ⟨⟨kind, surface, offset⟩, hkind⟩ := sign
  cases hkind
  have hoperand := follows_operand hlast
  simp only [step, joinOperands, TokenKind.startsOperand, Bool.false_and, Bool.false_eq_true,
    ↓reduceIte, bind, Except.bind, addOperator, hoperand, hop, hunary, pure, Except.pure]

/-- After an operand a product that is not written releases what it ends, and waits; the operand
after it finds the product before it. -/
theorem step_implied (hlast : last.kind.multiplies = true) {token : Token}
    (htoken : token.kind.isMultiplied = true) {op : Operator}
    (hop : registry.operator? productSymbol = some op) (yard : Yard) :
    step registry (some last) token yard =
      (releaseFor registry op yard.output yard.waiting).bind fun yard =>
        step registry (some ⟨.operator, productSymbol, token.offset⟩) token
          { yard with waiting := ⟨.operator, productSymbol, token.offset⟩ :: yard.waiting } := by
  obtain ⟨kind, surface, offset⟩ := token
  have hends : last.kind.endsOperand = true := by
    generalize last.kind = kind at hlast
    cases kind <;> first | rfl | cases hlast
  have hname : (last.kind == .functionName) = false := by
    generalize last.kind = kind at hlast
    cases kind <;> first | rfl | cases hlast
  have hstarts : kind.startsOperand = true := by
    cases kind <;> first | rfl | cases htoken
  have hproduct : TokenKind.operator.endsOperand = false := rfl
  simp only [step, joinOperands, hstarts, hends, hop, htoken, hlast, hproduct, Bool.and_self,
    Bool.and_false, Bool.false_eq_true, ↓reduceIte, bind, Except.bind, pure, Except.pure]
  cases releaseFor registry op yard.output yard.waiting with
  | error failure => rfl
  | ok yard =>
    cases kind with
    | variableName | functionName => rfl
    | openParen => simp [addOpenParen, hname]
    | _ => cases htoken

/-- A sign that ends no enclosing operand waits for its right operand. -/
theorem steps_sign {enclosing : Option Operator} {tokens after : List Token} {sign : Sign}
    {op : Operator} (hlast : last.kind.endsOperand = true)
    (hwaiting : Encloses registry enclosing waiting)
    (hjoint : joint? registry last.kind tokens = some (.sign sign op after))
    (hends : ¬ op.Ends enclosing) :
    steps registry (some last) ⟨output, waiting⟩ tokens =
      steps registry (some sign.token.val) ⟨output, sign.token.val :: waiting⟩ after := by
  have hrelease := releaseFor_encloses hwaiting hends output
  obtain ⟨token, rfl, rfl, hop, hunary⟩ | ⟨token, rest, rfl, rfl, rfl, hop, htoken, hmultiplies⟩ :=
    joint?_sign_cases hjoint
  · rw [steps_cons, step_written hlast token hop hunary, hrelease]
    rfl
  · rw [steps_cons, step_implied hmultiplies htoken hop, hrelease]
    rfl

/-- A waiting operator whose operand ends here may be listed at once. -/
theorem steps_release {top : Token} {op : Operator} {tokens : List Token}
    (hlast : tokens ≠ [] → last.kind.endsOperand = true) (hkind : top.kind.isOperator = true)
    (hop : registry.operator? top.surface = some op)
    (hstops : Stops registry (some op) last.kind tokens) :
    steps registry (some last) ⟨output, top :: waiting⟩ tokens =
      steps registry (some last) ⟨top :: output, waiting⟩ tokens := by
  rcases hstops with hstop | ⟨sign, joined, after, hjoint, hends⟩
  · cases tokens with
    | nil =>
      have hparen : ¬ (top.kind = .openParen ∨ top.kind = .closeParen) := by
        rintro (hparen | hparen) <;> simp [hparen, TokenKind.isOperator] at hkind
      simp only [steps]
      rw [finish, if_neg hparen]
    | cons token tokens =>
      have hrelease := releaseGroup_operator hkind output waiting
      obtain ⟨kind, surface, offset⟩ := token
      obtain rfl | rfl : kind = .comma ∨ kind = .closeParen := by
        simpa using joint?_eq_stop_iff.mp hstop
      · simp [step, joinOperands, TokenKind.startsOperand, addComma, hrelease, bind, Except.bind]
      · simp [step, joinOperands, TokenKind.startsOperand, addCloseParen, hrelease, bind,
          Except.bind]
  · have hrelease := releaseFor_ends hkind hop hends output waiting
    obtain ⟨token, rfl, rfl, hjoined, hunary⟩ |
        ⟨token, rest, rfl, rfl, rfl, hjoined, htoken, hmultiplies⟩ := joint?_sign_cases hjoint
    · rw [steps_cons, steps_cons, step_written (hlast (by simp)) token hjoined hunary,
        step_written (hlast (by simp)) token hjoined hunary, hrelease]
    · rw [steps_cons, steps_cons, step_implied hmultiplies htoken hjoined,
        step_implied hmultiplies htoken hjoined, hrelease]

/-- What neither ends an expression nor joins an operand to it is refused after it. -/
theorem steps_unjoined {tokens : List Token} (hlast : last.kind.endsOperand = true)
    (hsuccessive : Successive (some last.kind) tokens)
    (hjoint : joint? registry last.kind tokens = none) (yard : Yard) :
    ∃ failure, steps registry (some last) yard tokens = .error failure := by
  cases tokens with
  | nil => simp [joint?] at hjoint
  | cons token tokens =>
    suffices hstep : ∃ failure, step registry (some last) token yard = .error failure by
      obtain ⟨failure, hstep⟩ := hstep
      exact ⟨failure, by rw [steps_cons, hstep]; rfl⟩
    obtain ⟨kind, surface, offset⟩ := token
    cases kind with
    | comma | closeParen => simp [joint?] at hjoint
    | unaryOperator =>
      have hunary := (hsuccessive.1.unary rfl).mp rfl
      simp [precedesUnary_eq_false hlast] at hunary
    | operator =>
      have hoperand := follows_operand hlast
      simp only [joint?] at hjoint
      cases hop : registry.operator? surface with
      | none =>
        exact ⟨_, by simp [step, joinOperands, TokenKind.startsOperand, addOperator, hoperand, hop,
          bind, Except.bind]; rfl⟩
      | some op =>
        have hunary : op.unary = true := by simpa [hop] using hjoint
        exact ⟨_, by simp [step, joinOperands, TokenKind.startsOperand, addOperator, hoperand, hop,
          hunary, bind, Except.bind]; rfl⟩
    | number | hexadecimal | text | variableName | functionName | openParen =>
      simp only [joint?] at hjoint
      unfold step joinOperands
      simp only [TokenKind.startsOperand, hlast, Bool.and_self, ↓reduceIte]
      cases hop : registry.operator? productSymbol with
      | none => exact ⟨_, rfl⟩
      | some op =>
        simp only [hop, Option.map_some, ite_eq_right_iff, reduceCtorEq, imp_false] at hjoint
        simp only [if_neg hjoint]
        exact ⟨_, rfl⟩

/-- What a comma does after an operand. -/
theorem step_comma_eq (hlast : last.kind.endsOperand = true) {comma : Token}
    (hkind : comma.kind = .comma) :
    step registry (some last) comma ⟨output, waiting⟩ =
      let yard := releaseGroup output waiting
      match yard.waiting with
      | _ :: ⟨.functionName, _, _⟩ :: _ => .ok yard
      | _ => .error (.at .strayComma comma.offset) := by
  obtain ⟨kind, surface, offset⟩ := comma
  cases hkind
  have hfollows : follows (some last) TokenKind.precedesUnary = false := by
    simpa [follows] using precedesUnary_eq_false hlast
  change addComma (some last) ⟨.comma, surface, offset⟩ ⟨output, waiting⟩ = _
  rw [addComma, hfollows]
  rfl

/-- A comma between the arguments of a call changes nothing in the yard. -/
theorem step_comma (hlast : last.kind.endsOperand = true) (comma : TokenOf .comma)
    (opening : TokenOf .openParen) (name : TokenOf .functionName) :
    step registry (some last) comma.val ⟨output, opening.val :: name.val :: waiting⟩ =
      .ok ⟨output, opening.val :: name.val :: waiting⟩ := by
  obtain ⟨⟨kind, surface, offset⟩, hname⟩ := name
  cases hname
  rw [step_comma_eq hlast comma.property]
  simp only [releaseGroup_opening]

/-- Outside the arguments of a call a comma is refused. -/
theorem step_comma_stray (hlast : last.kind.endsOperand = true) {comma : Token}
    (hkind : comma.kind = .comma) {enclosing : Option Operator} {below : List Token}
    (hbelow : Encloses registry enclosing below)
    (hwaiting : waiting = [] ∨ ∃ opening : TokenOf .openParen, waiting = opening.val :: below) :
    ∃ failure, step registry (some last) comma ⟨output, waiting⟩ = .error failure := by
  rw [step_comma_eq hlast hkind]
  rcases hwaiting with rfl | ⟨opening, rfl⟩
  · exact ⟨_, rfl⟩
  · simp only [releaseGroup_opening]
    cases hbelow with
    | bottom => exact ⟨_, rfl⟩
    | group opening below =>
      obtain ⟨⟨kind, surface, offset⟩, hkind⟩ := opening
      cases hkind
      exact ⟨_, rfl⟩
    | @operator top op below hkind hop =>
      obtain ⟨kind, surface, offset⟩ := top
      cases kind <;> first | exact ⟨_, rfl⟩ | cases hkind

/-- A parenthesis that none opened for is refused. -/
theorem step_close_unopened (hlast : last.kind.endsOperand = true) (closing : TokenOf .closeParen) :
    ∃ failure, step registry (some last) closing.val ⟨output, []⟩ = .error failure := by
  obtain ⟨⟨kind, surface, offset⟩, hkind⟩ := closing
  cases hkind
  obtain ⟨kind, _, _⟩ := last
  cases kind <;> exact ⟨_, rfl⟩

/-- What a closing parenthesis does after an operand or right after the opening one. -/
theorem step_close (hlast : last.kind.endsOperand = true ∨ last.kind = .openParen)
    (closing : TokenOf .closeParen) (opening : TokenOf .openParen) :
    step registry (some last) closing.val ⟨output, opening.val :: waiting⟩ =
      match waiting with
      | [] => .ok ⟨output, []⟩
      | top :: rest =>
        if top.kind = .functionName then .ok ⟨top :: output, rest⟩
        else .ok ⟨output, top :: rest⟩ := by
  obtain ⟨⟨kind, surface, offset⟩, hkind⟩ := closing
  cases hkind
  have hcloses : (last.kind.isOperator || last.kind == .comma) = false := by
    generalize last.kind = kind at hlast
    rcases hlast with hlast | rfl
    · cases kind <;> first | rfl | cases hlast
    · rfl
  simp only [step, joinOperands, TokenKind.startsOperand, Bool.false_and, Bool.false_eq_true,
    ↓reduceIte, addCloseParen, hcloses, releaseGroup_opening, bind, Except.bind]
  cases waiting <;> rfl

/-- The parenthesis that closes a group takes the opening one away. -/
theorem step_close_group (hlast : last.kind.endsOperand = true ∨ last.kind = .openParen)
    (closing : TokenOf .closeParen) (opening : TokenOf .openParen) {enclosing : Option Operator}
    (hwaiting : Encloses registry enclosing waiting) :
    step registry (some last) closing.val ⟨output, opening.val :: waiting⟩ =
      .ok ⟨output, waiting⟩ := by
  rw [step_close hlast]
  cases hwaiting with
  | bottom => rfl
  | group opening below => simp [opening.property]
  | @operator top op below hkind hop =>
    have hname : top.kind ≠ .functionName := fun hname => by
      simp [hname, TokenKind.isOperator] at hkind
    simp [hname]

/-- The parenthesis that closes the arguments of a call lists the function. -/
theorem step_close_call (hlast : last.kind.endsOperand = true ∨ last.kind = .openParen)
    (closing : TokenOf .closeParen) (opening : TokenOf .openParen) (name : TokenOf .functionName) :
    step registry (some last) closing.val ⟨output, opening.val :: name.val :: waiting⟩ =
      .ok ⟨name.val :: output, waiting⟩ := by
  rw [step_close hlast]
  simp [name.property]

end Joined

/-- What follows a sign may follow an operator. -/
theorem successive_of_joint? {ending : TokenKind} {tokens after : List Token} {sign : Sign}
    {op : Operator} (hsuccessive : Successive (some ending) tokens)
    (hjoint : joint? registry ending tokens = some (.sign sign op after)) :
    Successive (some .operator) after := by
  obtain ⟨token, rfl, rfl, -⟩ | ⟨token, rest, rfl, rfl, rfl, -, htoken, -⟩ :=
    joint?_sign_cases hjoint
  · simpa [token.property] using hsuccessive.2
  · refine ⟨⟨fun hoperator => ?_, nofun⟩, hsuccessive.2⟩
    generalize token.kind = kind at htoken hoperator
    cases kind <;> simp [TokenKind.isMultiplied, TokenKind.isOperator] at htoken hoperator

end Formula.Rpn
