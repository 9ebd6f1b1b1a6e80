import Formula.Registry
import Formula.Token

/-! # Reverse Polish notation

Operands keep their order and operators follow them, by precedence and associativity of the registry.
A call is listed as its open parenthesis, its arguments and its name; the parenthesis marks where the
arguments start. Neighbouring operands may be read as a product.
-/
namespace Formula.Rpn

/-- Tokens that are listed already and tokens that wait, both the latest first. -/
structure Yard where
  output : List Token
  waiting : List Token
deriving Inhabited

/-- Whether `op` ends the operand of `waiting`, which stands before it. -/
def yieldsTo (op waiting : Operator) : Bool :=
  (op.leftAssociative && decide (op.precedence ≤ waiting.precedence)) ||
    decide (op.precedence < waiting.precedence)

/-- Lists the waiting operators whose operand `op` ends. -/
def releaseFor (registry : Registry) (op : Operator) (output : List Token) :
    (waiting : List Token) → Except Failure Yard
  | [] => .ok ⟨output, []⟩
  | top :: rest =>
    if top.kind.isOperator then
      match registry.operator? top.surface with
      | none => .error (.fault .missingMember)
      | some waitingOperator =>
        if yieldsTo op waitingOperator then releaseFor registry op (top :: output) rest
        else .ok ⟨output, top :: rest⟩
    else .ok ⟨output, top :: rest⟩

def releaseGroup (output : List Token) : (waiting : List Token) → Yard
  | [] => ⟨output, []⟩
  | top :: rest =>
    if top.kind = .openParen then ⟨output, top :: rest⟩ else releaseGroup (top :: output) rest

def productSymbol : String := "*"

/-- Between two neighbouring operands a product may stand in for the missing operator. -/
def joinOperands (registry : Registry) (previous : Option Token) (token : Token) (yard : Yard) :
    Except Failure Yard :=
  match previous with
  | none => .ok yard
  | some left =>
    if token.kind.startsOperand && left.kind.endsOperand then
      match registry.operator? productSymbol with
      | none => .error (.at .missingOperator token.offset)
      | some product =>
        if token.kind.isMultiplied && left.kind.multiplies then do
          let yard ← releaseFor registry product yard.output yard.waiting
          return { yard with waiting := ⟨.operator, productSymbol, token.offset⟩ :: yard.waiting }
        else .error (.at .missingOperator token.offset)
    else .ok yard

def follows (previous : Option Token) (p : TokenKind → Bool) : Bool := previous.all fun t => p t.kind

def addComma (previous : Option Token) (token : Token) (yard : Yard) : Except Failure Yard :=
  if follows previous TokenKind.precedesUnary then .error (.at .missingArgument token.offset)
  else
    let yard := releaseGroup yard.output yard.waiting
    match yard.waiting with
    | _ :: ⟨.functionName, _, _⟩ :: _ => .ok yard
    | _ => .error (.at .strayComma token.offset)

def addOperator (registry : Registry) (previous : Option Token) (token : Token) (yard : Yard) :
    Except Failure Yard :=
  if follows previous fun kind => kind == .comma || kind == .openParen then
    .error (.at (.missingOperands token.surface) token.offset)
  else
    match registry.operator? token.surface with
    | none => .error (.at (.unknownOperator token.surface) token.offset)
    | some op =>
      if op.unary then .error (.at (.unknownOperator token.surface) token.offset)
      else do
        let yard ← releaseFor registry op yard.output yard.waiting
        return { yard with waiting := token :: yard.waiting }

def addUnary (registry : Registry) (previous : Option Token) (token : Token) (yard : Yard) :
    Except Failure Yard :=
  if follows previous TokenKind.precedesUnary then
    if (registry.operator? token.surface).any (·.unary) then
      .ok { yard with waiting := token :: yard.waiting }
    else .error (.at (.unknownUnaryOperator token.unmarked) token.offset)
  else .error (.at (.misplacedUnaryOperator token.unmarked) token.offset)

def addOpenParen (previous : Option Token) (token : Token) (yard : Yard) : Yard :=
  if previous.any fun t => t.kind == .functionName then
    ⟨token :: yard.output, token :: yard.waiting⟩
  else { yard with waiting := token :: yard.waiting }

/-- Closes a group, and lists the function whose arguments it held. -/
def addCloseParen (previous : Option Token) (token : Token) (yard : Yard) : Except Failure Yard :=
  let complete : Except Failure Yard :=
    let yard := releaseGroup yard.output yard.waiting
    match yard.waiting with
    | [] => .error (.at .mismatchedParentheses token.offset)
    | _ :: top :: rest =>
      if top.kind = .functionName then .ok ⟨top :: yard.output, rest⟩
      else .ok ⟨yard.output, top :: rest⟩
    | [_] => .ok ⟨yard.output, []⟩
  match previous with
  | none => complete
  | some before =>
    if before.kind.isOperator || before.kind == .comma then
      .error (.at (.missingOperandsAfter before.symbol) before.offset)
    else complete

def step (registry : Registry) (previous : Option Token) (token : Token) (yard : Yard) :
    Except Failure Yard := do
  let yard ← joinOperands registry previous token yard
  match token.kind with
  | .number | .hexadecimal | .text | .variableName =>
    return { yard with output := token :: yard.output }
  | .functionName => return { yard with waiting := token :: yard.waiting }
  | .comma => addComma previous token yard
  | .operator => addOperator registry previous token yard
  | .unaryOperator => addUnary registry previous token yard
  | .openParen => return addOpenParen previous token yard
  | .closeParen => addCloseParen previous token yard

def finish (output : List Token) : (waiting : List Token) → Except Failure (List Token)
  | [] => .ok output.reverse
  | top :: rest =>
    if top.kind = .openParen ∨ top.kind = .closeParen then
      .error (.at .mismatchedParentheses top.offset)
    else finish (top :: output) rest

def steps (registry : Registry) (previous : Option Token) (yard : Yard) :
    List Token → Except Failure (List Token)
  | [] => finish yard.output yard.waiting
  | token :: tokens => do
    let yard ← step registry previous token yard
    steps registry (some token) yard tokens

def ofTokens (registry : Registry) (tokens : List Token) : Except Failure (List Token) :=
  steps registry none ⟨[], []⟩ tokens

/-- Operands counted in the innermost open call, and in the calls around it. -/
structure Scopes where
  current : Nat
  outer : List Nat

/-- Counts one token: operands are added, operators take theirs, a call takes its scope. -/
def countToken (registry : Registry) (scopes : Scopes) (token : Token) : Except Failure Scopes :=
  match token.kind with
  | .unaryOperator =>
    if scopes.current < 1 then .error (.at (.missingOperands token.unmarked) token.offset)
    else .ok scopes
  | .operator =>
    if scopes.current < 2 then
      if token.surface = ";" then .error (.at .unnecessarySemicolon token.offset)
      else .error (.at (.missingOperands token.surface) token.offset)
    else .ok { scopes with current := scopes.current - 1 }
  | .functionName =>
    match registry.function? token.surface with
    | none => .error (.at (.unknownFunction token.surface) token.offset)
    | some f =>
      if !f.variadic && (scopes.current : Int) != f.arity then
        .error (.at (.argumentCount token.surface f.arity scopes.current) token.offset)
      else
        match scopes.outer with
        | [] => .error (.at .tooManyCalls token.offset)
        | count :: outer => .ok ⟨count + 1, outer⟩
  | .openParen => .ok ⟨0, scopes.current :: scopes.outer⟩
  | _ => .ok { scopes with current := scopes.current + 1 }

def countTokens (registry : Registry) (scopes : Scopes) : List Token → Except Failure Scopes
  | [] => .ok scopes
  | token :: tokens => do
    let scopes ← countToken registry scopes token
    countTokens registry scopes tokens

/-- Checks that every operator and function finds its operands and that one value is left. -/
def validate (registry : Registry) (rpn : List Token) : Except Failure Unit := do
  let scopes ← countTokens registry ⟨0, []⟩ rpn
  let last := (rpn.getLast?.map (·.offset)).getD 0
  if !scopes.outer.isEmpty then .error (.at .openArgumentLists last)
  else if 1 < scopes.current then .error (.at .tooManyOperands last)
  else if scopes.current < 1 then .error (.at .emptyExpression last)
  else .ok ()

def checked (registry : Registry) (tokens : List Token) : Except Failure (List Token) := do
  let rpn ← ofTokens registry tokens
  validate registry rpn
  return rpn

end Formula.Rpn
