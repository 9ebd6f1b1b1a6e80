import Formula.Proofs.Registry.Reachable
import Formula.Proofs.Rpn.Places
import Formula.Proofs.Rpn.Validation
import Formula.Proofs.Rpn.Yard

/-! # Terms with all their parentheses

A term is written with parentheses around every operation, so that neither precedences nor products
without a sign can interfere. Its tokens are listed as the term is, and its text is scanned into
these tokens. So a parenthesised term is read as itself, whatever operators and functions a registry
has.
-/
namespace Formula

namespace Term

def opening : TokenOf .openParen := ⟨⟨.openParen, "(", 0⟩, rfl⟩

def closing : TokenOf .closeParen := ⟨⟨.closeParen, ")", 0⟩, rfl⟩

def comma : TokenOf .comma := ⟨⟨.comma, ",", 0⟩, rfl⟩

mutual
def parenthesised : Term → String
  | .atom leaf => leaf.token.written
  | .prefixed sign operand => "(" ++ sign.val.written ++ " " ++ operand.parenthesised ++ ")"
  | .infixed sign left right =>
    "(" ++ left.parenthesised ++ " " ++ sign.val.written ++ " " ++ right.parenthesised ++ ")"
  | .call _ name arguments =>
    name.val.written ++ "(" ++ ", ".intercalate (parenthesisedAll arguments) ++ ")"
def parenthesisedAll : List Term → List String
  | [] => []
  | term :: terms => term.parenthesised :: parenthesisedAll terms
end

mutual
def spelling : Term → List Token
  | .atom leaf => [leaf.token]
  | .prefixed sign operand => opening.val :: sign.val :: (operand.spelling ++ [closing.val])
  | .infixed sign left right =>
    opening.val :: (left.spelling ++ sign.val :: (right.spelling ++ [closing.val]))
  | .call mark name arguments => name.val :: mark.val :: (spellings arguments ++ [closing.val])
def spellings : List Term → List Token
  | [] => []
  | term :: terms => term.spelling ++ furtherSpellings terms
def furtherSpellings : List Term → List Token
  | [] => []
  | term :: terms => comma.val :: (term.spelling ++ furtherSpellings terms)
end

end Term

def Leaf.Writable (registry : Registry) (leaf : Leaf) : Prop :=
  match leaf.token.kind with
  | .text => '\'' ∉ leaf.token.surface.toList
  | .variableName => Registry.isName leaf.token.surface = true
  | kind => tokenize registry leaf.token.surface = .ok [⟨kind, leaf.token.surface, 0⟩]

namespace Term

mutual
/-- Leaves can be written, operators are registered with as many operands, and calls name registered
functions that take so many arguments. -/
def Writable (registry : Registry) : Term → Prop
  | .atom leaf => leaf.Writable registry
  | .prefixed sign operand =>
    (∃ op, registry.operator? sign.val.surface = some op ∧ op.unary = true) ∧
      operand.Writable registry
  | .infixed sign left right =>
    (∃ op, registry.operator? sign.val.surface = some op ∧ op.unary = false) ∧
      left.Writable registry ∧ right.Writable registry
  | .call mark name arguments =>
    mark.val.surface = "(" ∧ Registry.isName name.val.surface = true ∧
      registry.Accepts name.val.surface arguments.length ∧ AllWritable registry arguments
def AllWritable (registry : Registry) : List Term → Prop
  | [] => True
  | term :: terms => term.Writable registry ∧ AllWritable registry terms
end

mutual
theorem Writable.callable {registry : Registry} :
    (term : Term) → term.Writable registry → term.Callable registry
  | .atom _, _ => trivial
  | .prefixed _ operand, h => Writable.callable operand h.2
  | .infixed _ left right, h => ⟨Writable.callable left h.2.1, Writable.callable right h.2.2⟩
  | .call _ _ arguments, h => ⟨h.2.2.1, AllWritable.callable arguments h.2.2.2⟩
theorem AllWritable.callable {registry : Registry} :
    (terms : List Term) → AllWritable registry terms → AllCallable registry terms
  | [], _ => trivial
  | term :: terms, h => ⟨Writable.callable term h.1, AllWritable.callable terms h.2⟩
end

end Term

namespace Rpn

open Term

variable {registry : Registry} {previous : Option Token} {output waiting : List Token}

theorem expecting_of_kind {kind : TokenKind} (token : TokenOf kind) (h : kind.precedesUnary = true) :
    Expecting (some token.val) := by
  simp [Expecting, follows, token.property, h]

/-- The sign of an operation is listed when its parenthesis closes, and the parentheses vanish. -/
theorem steps_closing {last sign : Token} {op : Operator} {enclosing : Option Operator}
    (hlast : last.kind.endsOperand = true) (hkind : sign.kind.isOperator = true)
    (hop : registry.operator? sign.surface = some op)
    (hwaiting : Encloses registry enclosing waiting) (rest : List Token) :
    steps registry (some last) ⟨output, sign :: opening.val :: waiting⟩ (closing.val :: rest) =
      steps registry (some closing.val) ⟨sign :: output, waiting⟩ rest := by
  have hstop : Reader.Stops registry (some op) last.kind (closing.val :: rest) := by
    refine .inl (Reader.joint?_eq_stop_iff.mpr ?_)
    intro token htoken
    obtain rfl : closing.val = token := by simpa using htoken
    exact .inr rfl
  rw [steps_release (fun _ => hlast) hkind hop hstop, steps_cons,
    step_close_group (.inl hlast) closing opening hwaiting]
  rfl

/-- Where an operand is expected, the yard lists these tokens so, whatever waits and whatever follows. -/
def OperandListed (registry : Registry) (tokens listing : List Token) : Prop :=
  ∀ ⦃previous : Option Token⦄ ⦃enclosing : Option Operator⦄ ⦃output waiting : List Token⦄,
    Expecting previous → Encloses registry enclosing waiting → ∀ rest : List Token,
      ∃ last : Token, last.kind.endsOperand = true ∧
        steps registry previous ⟨output, waiting⟩ (tokens ++ rest) =
          steps registry (some last) ⟨listing.reverse ++ output, waiting⟩ rest

def FurtherListed (registry : Registry) (tokens listing : List Token) : Prop :=
  ∀ (mark : TokenOf .openParen) (name : TokenOf .functionName) ⦃last : Token⦄
    ⦃output waiting : List Token⦄, last.kind.endsOperand = true → ∀ rest : List Token,
      ∃ next : Token, next.kind.endsOperand = true ∧
        steps registry (some last) ⟨output, mark.val :: name.val :: waiting⟩ (tokens ++ rest) =
          steps registry (some next) ⟨listing.reverse ++ output, mark.val :: name.val :: waiting⟩ rest

def ArgumentsListed (registry : Registry) (tokens listing : List Token) : Prop :=
  ∀ (mark : TokenOf .openParen) (name : TokenOf .functionName) ⦃output waiting : List Token⦄
    (rest : List Token), ∃ last : Token, (last.kind.endsOperand = true ∨ last.kind = .openParen) ∧
      steps registry (some mark.val) ⟨output, mark.val :: name.val :: waiting⟩ (tokens ++ rest) =
        steps registry (some last) ⟨listing.reverse ++ output, mark.val :: name.val :: waiting⟩ rest

theorem OperandListed.leaf (leaf : Leaf) : OperandListed registry [leaf.token] [leaf.token] := by
  intro previous enclosing output waiting hexpecting _ rest
  refine ⟨leaf.token, leaf.endsOperand, ?_⟩
  rw [List.singleton_append, steps_cons, step_leaf hexpecting]
  rfl

theorem OperandListed.prefixed {tokens listing : List Token} (h : OperandListed registry tokens listing)
    (sign : TokenOf .unaryOperator) {op : Operator}
    (hop : registry.operator? sign.val.surface = some op) (hunary : op.unary = true) :
    OperandListed registry (opening.val :: sign.val :: (tokens ++ [closing.val]))
      (listing ++ [sign.val]) := by
  intro previous enclosing output waiting hexpecting hwaiting rest
  have hkind : sign.val.kind.isOperator = true := by rw [sign.property]; rfl
  obtain ⟨last, hlast, hsteps⟩ := h (expecting_of_kind sign rfl)
    (.operator (opening.val :: waiting) hkind hop) (closing.val :: rest)
  refine ⟨closing.val, rfl, ?_⟩
  rw [List.cons_append, List.cons_append, List.append_assoc, List.singleton_append, steps_cons,
    step_group hexpecting, Except.bind, steps_cons,
    step_unary (expecting_of_kind opening rfl) sign hop hunary, Except.bind, hsteps,
    steps_closing hlast hkind hop hwaiting, List.reverse_append, List.append_assoc]
  rfl

theorem OperandListed.infixed {tokens listing more further : List Token}
    (h : OperandListed registry tokens listing) (k : OperandListed registry more further)
    (sign : TokenOf .operator) {op : Operator}
    (hop : registry.operator? sign.val.surface = some op) (hunary : op.unary = false) :
    OperandListed registry (opening.val :: (tokens ++ sign.val :: (more ++ [closing.val])))
      (listing ++ further ++ [sign.val]) := by
  intro previous enclosing output waiting hexpecting hwaiting rest
  have hkind : sign.val.kind.isOperator = true := by rw [sign.property]; rfl
  obtain ⟨last, hlast, hsteps⟩ := h (expecting_of_kind opening rfl) (.group opening waiting)
    (sign.val :: (more ++ closing.val :: rest))
  obtain ⟨next, hnext, hsteps'⟩ := k (expecting_of_kind sign rfl)
    (.operator (opening.val :: waiting) hkind hop) (closing.val :: rest)
  have hrelease : releaseFor registry op (listing.reverse ++ output) (opening.val :: waiting) =
      .ok ⟨listing.reverse ++ output, opening.val :: waiting⟩ :=
    releaseFor_encloses (.group opening waiting) (by simp [Operator.Ends]) _
  refine ⟨closing.val, rfl, ?_⟩
  rw [List.cons_append, List.append_assoc, List.cons_append, List.append_assoc,
    List.singleton_append, steps_cons, step_group hexpecting, Except.bind, hsteps, steps_cons,
    step_written hlast sign hop hunary, hrelease, Except.bind, Except.bind, hsteps',
    steps_closing hnext hkind hop hwaiting]
  simp

theorem OperandListed.call {tokens listing : List Token}
    (h : ArgumentsListed registry tokens listing) (mark : TokenOf .openParen)
    (name : TokenOf .functionName) :
    OperandListed registry (name.val :: mark.val :: (tokens ++ [closing.val]))
      (mark.val :: (listing ++ [name.val])) := by
  intro previous enclosing output waiting hexpecting _ rest
  obtain ⟨last, hlast, hsteps⟩ := h mark name (closing.val :: rest)
  refine ⟨closing.val, rfl, ?_⟩
  rw [List.cons_append, List.cons_append, List.append_assoc, List.singleton_append, steps_cons,
    step_name hexpecting, Except.bind, steps_cons, step_mark, Except.bind, hsteps, steps_cons,
    step_close_call hlast, Except.bind]
  simp

theorem FurtherListed.nil : FurtherListed registry [] [] :=
  fun _ _ last _ _ hlast _ => ⟨last, hlast, rfl⟩

theorem FurtherListed.cons {tokens listing more further : List Token}
    (h : OperandListed registry tokens listing) (k : FurtherListed registry more further) :
    FurtherListed registry (comma.val :: (tokens ++ more)) (listing ++ further) := by
  intro mark name last output waiting hlast rest
  obtain ⟨next, hnext, hsteps⟩ := h (expecting_of_kind comma rfl) (.group mark (name.val :: waiting))
    (more ++ rest)
  obtain ⟨final, hfinal, hsteps'⟩ := k mark name hnext rest
  refine ⟨final, hfinal, ?_⟩
  rw [List.cons_append, List.append_assoc, steps_cons, step_comma hlast comma mark name, Except.bind,
    hsteps, hsteps', List.reverse_append, List.append_assoc]

theorem ArgumentsListed.nil : ArgumentsListed registry [] [] :=
  fun mark _ _ _ _ => ⟨mark.val, .inr mark.property, rfl⟩

theorem ArgumentsListed.cons {tokens listing more further : List Token}
    (h : OperandListed registry tokens listing) (k : FurtherListed registry more further) :
    ArgumentsListed registry (tokens ++ more) (listing ++ further) := by
  intro mark name output waiting rest
  obtain ⟨last, hlast, hsteps⟩ := h (expecting_of_kind mark rfl) (.group mark (name.val :: waiting))
    (more ++ rest)
  obtain ⟨final, hfinal, hsteps'⟩ := k mark name hlast rest
  refine ⟨final, .inl hfinal, ?_⟩
  rw [List.append_assoc, hsteps, hsteps', List.reverse_append, List.append_assoc]

mutual
theorem operandListed_spelling :
    (term : Term) → term.Writable registry → OperandListed registry term.spelling term.listing
  | .atom leaf, _ => .leaf leaf
  | .prefixed sign operand, ⟨⟨_, hop, hunary⟩, hoperand⟩ =>
    (operandListed_spelling operand hoperand).prefixed sign hop hunary
  | .infixed sign left right, ⟨⟨_, hop, hunary⟩, hleft, hright⟩ =>
    (operandListed_spelling left hleft).infixed (operandListed_spelling right hright) sign hop hunary
  | .call mark name arguments, ⟨_, _, _, harguments⟩ =>
    .call (argumentsListed_spellings arguments harguments) mark name
theorem argumentsListed_spellings : (terms : List Term) → AllWritable registry terms →
    ArgumentsListed registry (spellings terms) (listings terms)
  | [], _ => .nil
  | term :: terms, ⟨hterm, hterms⟩ =>
    .cons (operandListed_spelling term hterm) (furtherListed_spellings terms hterms)
theorem furtherListed_spellings : (terms : List Term) → AllWritable registry terms →
    FurtherListed registry (furtherSpellings terms) (listings terms)
  | [], _ => .nil
  | term :: terms, ⟨hterm, hterms⟩ =>
    .cons (operandListed_spelling term hterm) (furtherListed_spellings terms hterms)
end

/-- By itself, what is listed as an operand is checked and listed so. -/
theorem OperandListed.checked_eq {tokens : List Token} {term : Term}
    (h : OperandListed registry tokens term.listing) (hcallable : term.Callable registry) :
    checked registry tokens = .ok term.listing := by
  have hexpecting : Expecting none := rfl
  obtain ⟨last, -, hsteps⟩ := h hexpecting .bottom []
  have hlisted : ofTokens registry tokens = .ok term.listing := by
    rw [List.append_nil] at hsteps
    rw [ofTokens, hsteps, steps, List.append_nil, finish, List.reverse_reverse]
  have hvalid := validate_listing hcallable
  simp only [checked, hlisted, hvalid, bind, Except.bind]
  rfl

theorem checked_spelling {term : Term} (h : term.Writable registry) :
    checked registry term.spelling = .ok term.listing :=
  (operandListed_spelling term h).checked_eq (Writable.callable term h)

end Rpn

end Formula
