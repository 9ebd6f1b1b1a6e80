import Formula.Proofs.Rpn.Phrase

/-! # Reading by recursive descent

The tokens of a text read from left to right, an operand at a time. What stands after an operand
ends the expression, or joins the operand to the next one; an operator that ends the operand of the
enclosing operator is left to the reading around it.
-/
namespace Formula

/-- Whether an operator ends the operand of the operator that encloses it. In a group, in an
argument and in the whole text nothing does. -/
def Operator.Ends (op : Operator) : Option Operator → Prop
  | none => False
  | some enclosing =>
    (op.leftAssociative = true ∧ op.precedence ≤ enclosing.precedence) ∨
      op.precedence < enclosing.precedence

instance (op : Operator) : (enclosing : Option Operator) → Decidable (op.Ends enclosing)
  | none => inferInstanceAs (Decidable False)
  | some enclosing =>
    inferInstanceAs (Decidable ((op.leftAssociative = true ∧ op.precedence ≤ enclosing.precedence) ∨
      op.precedence < enclosing.precedence))

namespace Reader

inductive Joint where
  | stop
  | sign (sign : Sign) (op : Operator) (after : List Token)

/-- How the tokens go on after an operand whose last token has the kind `ending`. An operand that
follows directly is joined by a product where both sides allow it. -/
def joint? (registry : Registry) (ending : TokenKind) : List Token → Option Joint
  | [] => some .stop
  | token :: tokens =>
    match h : token.kind with
    | .comma | .closeParen => some .stop
    | .operator =>
      match registry.operator? token.surface with
      | some op => if op.unary then none else some (.sign (.written ⟨token, h⟩) op tokens)
      | none => none
    | .unaryOperator => none
    | .number | .hexadecimal | .text | .variableName | .functionName | .openParen =>
      if token.kind.isMultiplied && ending.multiplies then
        (registry.operator? Rpn.productSymbol).map fun op =>
          .sign (.implied token.offset) op (token :: tokens)
      else none

/-- An expression ends where the text does, at a comma, and where a parenthesis closes. -/
theorem joint?_eq_stop_iff {registry : Registry} {ending : TokenKind} {tokens : List Token} :
    joint? registry ending tokens = some .stop ↔
      ∀ token ∈ tokens.head?, token.kind = .comma ∨ token.kind = .closeParen := by
  cases tokens with
  | nil => simp [joint?]
  | cons token tokens =>
    obtain ⟨kind, surface, offset⟩ := token
    cases kind with
    | comma | closeParen | unaryOperator => simp [joint?]
    | operator =>
      simp only [joint?]
      split
      · split <;> simp
      · simp
    | number | hexadecimal | text | variableName | functionName | openParen =>
      simp only [joint?]
      split <;> simp

/-- A sign is written as a binary operator, or it is a product before an operand. -/
theorem joint?_sign_cases {registry : Registry} {ending : TokenKind} {tokens after : List Token}
    {sign : Sign} {op : Operator} (h : joint? registry ending tokens = some (.sign sign op after)) :
    (∃ token : TokenOf .operator, sign = .written token ∧ tokens = token.val :: after ∧
        registry.operator? token.val.surface = some op ∧ op.unary = false) ∨
      ∃ token rest, sign = .implied token.offset ∧ tokens = token :: rest ∧ after = token :: rest ∧
        registry.operator? Rpn.productSymbol = some op ∧ token.kind.isMultiplied = true ∧
        ending.multiplies = true := by
  cases tokens with
  | nil => simp [joint?] at h
  | cons token tokens =>
    obtain ⟨kind, surface, offset⟩ := token
    cases kind with
    | comma | closeParen | unaryOperator => simp [joint?] at h
    | operator =>
      simp only [joint?] at h
      split at h
      next op hop =>
        split at h
        next => cases h
        next hunary =>
          cases h
          exact .inl ⟨_, rfl, rfl, hop, by simpa using hunary⟩
      next => cases h
    | number | hexadecimal | text => simp [joint?, TokenKind.isMultiplied] at h
    | variableName | functionName | openParen =>
      simp only [joint?] at h
      split at h
      next hjoined =>
        obtain ⟨_, hproduct, heq⟩ := Option.map_eq_some_iff.mp h
        cases heq
        exact .inr ⟨_, _, rfl, rfl, rfl, hproduct, by simpa using hjoined⟩
      next => cases h

theorem spelling_of_joint? {registry : Registry} {ending : TokenKind} {tokens after : List Token}
    {sign : Sign} {op : Operator} (h : joint? registry ending tokens = some (.sign sign op after)) :
    sign.spelling ++ after = tokens := by
  obtain ⟨token, rfl, rfl, -, -⟩ | ⟨token, rest, rfl, rfl, rfl, -⟩ := joint?_sign_cases h <;> rfl

theorem operator?_of_joint? {registry : Registry} {ending : TokenKind} {tokens after : List Token}
    {sign : Sign} {op : Operator} (h : joint? registry ending tokens = some (.sign sign op after)) :
    registry.operator? sign.token.val.surface = some op := by
  obtain ⟨token, rfl, -, hop, -⟩ | ⟨token, rest, rfl, -, -, hop, -⟩ :=
    joint?_sign_cases h <;> exact hop

theorem length_of_joint? {registry : Registry} {ending : TokenKind} {tokens after : List Token}
    {sign : Sign} {op : Operator} (h : joint? registry ending tokens = some (.sign sign op after)) :
    after.length ≤ tokens.length ∧ 0 < tokens.length := by
  obtain ⟨token, -, rfl, -⟩ | ⟨token, rest, -, rfl, rfl, -⟩ := joint?_sign_cases h <;> simp

abbrev Rest (bound : Nat) := { rest : List Token // rest.length ≤ bound }

mutual
def readOperand (registry : Registry) (token : Token) (tokens : List Token) :
    Option (Phrase × Rest tokens.length) :=
  match h : token.kind with
  | .number | .hexadecimal | .text | .variableName =>
    some (.leaf ⟨token, by simp [h, TokenKind.isLeaf]⟩, ⟨tokens, Nat.le_refl _⟩)
  | .unaryOperator =>
    match registry.operator? token.surface with
    | some op =>
      if op.unary then do
        let (operand, ⟨rest, hrest⟩) ← readExpression registry (some op) tokens
        return (.prefixed ⟨token, h⟩ operand, ⟨rest, by omega⟩)
      else none
    | none => none
  | .openParen =>
    match tokens with
    | first :: after =>
      if hfirst : first.kind = .closeParen then
        some (.hollow ⟨token, h⟩ ⟨first, hfirst⟩, ⟨after, by simp⟩)
      else do
        match ← readExpression registry none (first :: after) with
        | (inner, ⟨closing :: rest, hrest⟩) =>
          if hclosing : closing.kind = .closeParen then
            return (.group ⟨token, h⟩ inner ⟨closing, hclosing⟩, ⟨rest, by simp at hrest ⊢; omega⟩)
          else none
        | (_, ⟨[], _⟩) => none
    | [] => none
  | .functionName =>
    match tokens with
    | opening :: first :: after =>
      if hopening : opening.kind = .openParen then
        if hfirst : first.kind = .closeParen then
          some (.bareCall ⟨token, h⟩ ⟨opening, hopening⟩ ⟨first, hfirst⟩, ⟨after, by simp; omega⟩)
        else do
          let (arguments, closing, ⟨rest, hrest⟩) ← readArguments registry (first :: after)
          return (.call ⟨token, h⟩ ⟨opening, hopening⟩ arguments closing,
            ⟨rest, by simp at hrest ⊢; omega⟩)
      else none
    | _ => none
  | .operator | .closeParen | .comma => none
termination_by 3 * tokens.length + 3
decreasing_by all_goals (try simp only [List.length_cons] at *); omega
def readExpression (registry : Registry) (enclosing : Option Operator) :
    (tokens : List Token) → Option (Phrase × Rest (tokens.length - 1))
  | [] => some (.missing, ⟨[], by simp⟩)
  | token :: tokens => do
    let (operand, ⟨rest, hrest⟩) ← readOperand registry token tokens
    let (phrase, ⟨last, hlast⟩) ← readFurther registry enclosing operand rest
    return (phrase, ⟨last, by simp; omega⟩)
termination_by tokens => 3 * tokens.length + 1
decreasing_by all_goals (try simp only [List.length_cons] at *); omega
def readFurther (registry : Registry) (enclosing : Option Operator) (left : Phrase)
    (tokens : List Token) :
    Option (Phrase × Rest tokens.length) :=
  match h : joint? registry left.ending tokens with
  | some .stop => some (left, ⟨tokens, Nat.le_refl _⟩)
  | some (.sign sign op after) =>
    have hafter := length_of_joint? h
    if op.Ends enclosing then some (left, ⟨tokens, Nat.le_refl _⟩)
    else do
      let (right, ⟨rest, hrest⟩) ← readExpression registry (some op) after
      let (phrase, ⟨last, hlast⟩) ← readFurther registry enclosing (.infixed sign left right) rest
      return (phrase, ⟨last, by omega⟩)
  | none => none
termination_by 3 * tokens.length + 2
decreasing_by all_goals omega
def readArguments (registry : Registry) (tokens : List Token) :
    Option (Arguments × TokenOf .closeParen × Rest (tokens.length - 1)) := do
  match ← readExpression registry none tokens with
  | (phrase, ⟨token :: rest, hrest⟩) =>
    if hcomma : token.kind = .comma then do
      let (arguments, closing, ⟨last, hlast⟩) ← readArguments registry rest
      return (.more phrase ⟨token, hcomma⟩ arguments, closing, ⟨last, by simp at hrest; omega⟩)
    else if hclosing : token.kind = .closeParen then
      return (.last phrase, ⟨token, hclosing⟩, ⟨rest, by simp at hrest; omega⟩)
    else none
  | (_, ⟨[], _⟩) => none
termination_by 3 * tokens.length + 2
decreasing_by all_goals (try simp only [List.length_cons] at *); omega
end

def Stops (registry : Registry) (enclosing : Option Operator) (ending : TokenKind)
    (tokens : List Token) :
    Prop :=
  joint? registry ending tokens = some .stop ∨
    ∃ sign op after, joint? registry ending tokens = some (.sign sign op after) ∧ op.Ends enclosing

/-- Where nothing encloses it, an expression ends at a comma or a closing parenthesis. -/
theorem kind_of_stops {registry : Registry} {ending : TokenKind} {token : Token}
    {tokens : List Token} (h : Stops registry none ending (token :: tokens)) :
    token.kind = .comma ∨ token.kind = .closeParen := by
  rcases h with hstop | ⟨_, _, _, -, hends⟩
  · exact joint?_eq_stop_iff.mp hstop token rfl
  · exact hends.elim

theorem readFurther_stops {registry : Registry} {enclosing : Option Operator} {left phrase : Phrase}
    {tokens : List Token} {rest : Rest tokens.length}
    (h : readFurther registry enclosing left tokens = some (phrase, rest)) :
    Stops registry enclosing phrase.ending rest.val := by
  rw [readFurther] at h
  split at h
  next hjoint =>
    cases h
    exact .inl hjoint
  next sign op after hjoint =>
    split at h
    next hends =>
      cases h
      exact .inr ⟨sign, op, after, hjoint, hends⟩
    next =>
      simp only [bind, Option.bind_eq_some_iff, pure, Option.some.injEq] at h
      obtain ⟨⟨right, between, hbetween⟩, hright, ⟨further, last, hlast⟩, hfurther, heq⟩ := h
      cases heq
      have hafter := length_of_joint? hjoint
      have hstops := readFurther_stops hfurther
      exact hstops
  next => cases h
termination_by tokens.length
decreasing_by omega

/-- Reading goes on until the expression ends. -/
theorem readExpression_stops {registry : Registry} {enclosing : Option Operator} {phrase : Phrase}
    {tokens : List Token} {rest : Rest (tokens.length - 1)}
    (h : readExpression registry enclosing tokens = some (phrase, rest)) :
    Stops registry enclosing phrase.ending rest.val := by
  cases tokens with
  | nil =>
    rw [readExpression] at h
    cases h
    exact .inl rfl
  | cons token tokens =>
    rw [readExpression] at h
    simp only [bind, Option.bind_eq_some_iff, pure, Option.some.injEq] at h
    obtain ⟨⟨operand, between, hbetween⟩, -, ⟨further, last, hlast⟩, hfurther, heq⟩ := h
    cases heq
    have hstops := readFurther_stops hfurther
    exact hstops

def readAll (registry : Registry) (tokens : List Token) : Option Phrase :=
  match readExpression registry none tokens with
  | some (phrase, ⟨[], _⟩) => some phrase
  | _ => none

end Reader

end Formula
