import Formula.Rpn
import Formula.Proofs.Rpn.Term

/-! # Phrases

An expression as it is written: with its groups, its commas and the products that have no sign. A
pair of parentheses may hold nothing, and at the end of a text an operand may be missing; a phrase
without such gaps stands for a term.
-/
namespace Formula

/-- The sign between two operands: written, or a product that is read where none is written. -/
inductive Sign where
  | written (token : TokenOf .operator)
  | implied (offset : Nat)

namespace Sign

def token : Sign → TokenOf .operator
  | .written token => token
  | .implied offset => ⟨⟨.operator, Rpn.productSymbol, offset⟩, rfl⟩

def spelling : Sign → List Token
  | .written token => [token.val]
  | .implied _ => []

end Sign

mutual
inductive Phrase where
  /-- Nothing where an operand is needed, at the end of the text. -/
  | missing
  | leaf (leaf : Leaf)
  /-- A pair of parentheses with nothing in it, which calls no function. -/
  | hollow (opening : TokenOf .openParen) (closing : TokenOf .closeParen)
  | group (opening : TokenOf .openParen) (inner : Phrase) (closing : TokenOf .closeParen)
  | prefixed (sign : TokenOf .unaryOperator) (operand : Phrase)
  | infixed (sign : Sign) (left right : Phrase)
  | bareCall (name : TokenOf .functionName) (opening : TokenOf .openParen)
      (closing : TokenOf .closeParen)
  | call (name : TokenOf .functionName) (opening : TokenOf .openParen) (arguments : Arguments)
      (closing : TokenOf .closeParen)
inductive Arguments where
  | last (phrase : Phrase)
  | more (phrase : Phrase) (comma : TokenOf .comma) (rest : Arguments)
end

mutual
def Phrase.spelling : Phrase → List Token
  | .missing => []
  | .leaf leaf => [leaf.token]
  | .hollow opening closing => [opening.val, closing.val]
  | .group opening inner closing => opening.val :: (inner.spelling ++ [closing.val])
  | .prefixed sign operand => sign.val :: operand.spelling
  | .infixed sign left right => left.spelling ++ sign.spelling ++ right.spelling
  | .bareCall name opening closing => [name.val, opening.val, closing.val]
  | .call name opening arguments closing =>
    name.val :: opening.val :: (arguments.spelling ++ [closing.val])
def Arguments.spelling : Arguments → List Token
  | .last phrase => phrase.spelling
  | .more phrase comma rest => phrase.spelling ++ comma.val :: rest.spelling
end

mutual
def Phrase.listing : Phrase → List Token
  | .missing | .hollow .. => []
  | .leaf leaf => [leaf.token]
  | .group _ inner _ => inner.listing
  | .prefixed sign operand => operand.listing ++ [sign.val]
  | .infixed sign left right => left.listing ++ right.listing ++ [sign.token.val]
  | .bareCall name opening _ => [opening.val, name.val]
  | .call name opening arguments _ => opening.val :: (arguments.listing ++ [name.val])
def Arguments.listing : Arguments → List Token
  | .last phrase => phrase.listing
  | .more phrase _ rest => phrase.listing ++ rest.listing
end

namespace Phrase

def ending : Phrase → TokenKind
  | .leaf operand => operand.token.kind
  | .prefixed _ operand => operand.ending
  | .infixed _ _ right => right.ending
  | .missing | .hollow .. | .group .. | .bareCall .. | .call .. => .closeParen

end Phrase

mutual
def Phrase.Finished : Phrase → Prop
  | .missing => False
  | .leaf _ | .hollow .. | .bareCall .. => True
  | .group _ inner _ => inner.Finished
  | .prefixed _ operand => operand.Finished
  | .infixed _ left right => left.Finished ∧ right.Finished
  | .call _ _ arguments _ => arguments.Finished
def Arguments.Finished : Arguments → Prop
  | .last phrase => phrase.Finished
  | .more phrase _ rest => phrase.Finished ∧ rest.Finished
end

mutual
/-- The number of operands that a phrase lacks. What a call lacks among its arguments is not
counted: the call itself is there. -/
def Phrase.gaps : Phrase → Nat
  | .missing | .hollow .. => 1
  | .leaf _ | .bareCall .. | .call .. => 0
  | .group _ inner _ => inner.gaps
  | .prefixed _ operand => operand.gaps
  | .infixed _ left right => left.gaps + right.gaps
def Arguments.gaps : Arguments → Nat
  | .last phrase => phrase.gaps
  | .more phrase _ rest => phrase.gaps + rest.gaps
end

mutual
def Phrase.term? : Phrase → Option Term
  | .missing | .hollow .. => none
  | .leaf leaf => some (.atom leaf)
  | .group _ inner _ => inner.term?
  | .prefixed sign operand => return .prefixed sign (← operand.term?)
  | .infixed sign left right => return .infixed sign.token (← left.term?) (← right.term?)
  | .bareCall name opening _ => some (.call opening name [])
  | .call name opening arguments _ => return .call opening name (← arguments.terms?)
def Arguments.terms? : Arguments → Option (List Term)
  | .last phrase => return [← phrase.term?]
  | .more phrase _ rest => return (← phrase.term?) :: (← rest.terms?)
end

mutual
/-- The term of a phrase is listed as the phrase. -/
theorem Phrase.listing_of_term? : (phrase : Phrase) → {term : Term} → phrase.term? = some term →
    phrase.listing = term.listing
  | .missing, term, h | .hollow .., term, h => by cases h
  | .leaf leaf, term, h => by
    cases h
    rfl
  | .group _ inner _, term, h => inner.listing_of_term? h
  | .prefixed sign operand, term, h => by
    simp only [Phrase.term?, bind, Option.bind_eq_some_iff, pure, Option.some.injEq] at h
    obtain ⟨_, hoperand, rfl⟩ := h
    rw [Phrase.listing, Term.listing, operand.listing_of_term? hoperand]
  | .infixed sign left right, term, h => by
    simp only [Phrase.term?, bind, Option.bind_eq_some_iff, pure, Option.some.injEq] at h
    obtain ⟨_, hleft, _, hright, rfl⟩ := h
    rw [Phrase.listing, Term.listing, left.listing_of_term? hleft, right.listing_of_term? hright]
  | .bareCall name opening _, term, h => by
    cases h
    rfl
  | .call name opening arguments _, term, h => by
    simp only [Phrase.term?, bind, Option.bind_eq_some_iff, pure, Option.some.injEq] at h
    obtain ⟨_, harguments, rfl⟩ := h
    rw [Phrase.listing, Term.listing, arguments.listing_of_terms? harguments]
theorem Arguments.listing_of_terms? : (arguments : Arguments) → {terms : List Term} →
    arguments.terms? = some terms → arguments.listing = Term.listings terms
  | .last phrase, terms, h => by
    simp only [Arguments.terms?, bind, Option.bind_eq_some_iff, pure, Option.some.injEq] at h
    obtain ⟨_, hphrase, rfl⟩ := h
    rw [Arguments.listing, phrase.listing_of_term? hphrase, Term.listings, Term.listings,
      List.append_nil]
  | .more phrase _ rest, terms, h => by
    simp only [Arguments.terms?, bind, Option.bind_eq_some_iff, pure, Option.some.injEq] at h
    obtain ⟨_, hphrase, _, hrest, rfl⟩ := h
    rw [Arguments.listing, phrase.listing_of_term? hphrase, rest.listing_of_terms? hrest,
      Term.listings]
end

/-- A phrase in which no operand is missing ends as an operand does. -/
theorem Phrase.ending_endsOperand : (phrase : Phrase) → phrase.Finished →
    phrase.ending.endsOperand = true
  | .missing, h => h.elim
  | .leaf operand, _ => by
    obtain ⟨⟨kind, surface, offset⟩, isLeaf⟩ := operand
    cases kind <;> first | rfl | exact absurd isLeaf (by simp [TokenKind.isLeaf])
  | .prefixed _ operand, h => operand.ending_endsOperand h
  | .infixed _ _ right, h => right.ending_endsOperand h.2
  | .hollow .., _ | .group .., _ | .bareCall .., _ | .call .., _ => rfl

/-- No parenthesis closes right after it opened a group. -/
def GroupsFilled (previous : Option TokenKind) : List Token → Prop
  | [] => True
  | token :: tokens =>
    (token.kind = .openParen → previous ≠ some .functionName →
      ∀ next ∈ tokens.head?, next.kind ≠ .closeParen) ∧
      GroupsFilled (some token.kind) tokens

instance decidableGroupsFilled (previous : Option TokenKind) : (tokens : List Token) →
    Decidable (GroupsFilled previous tokens)
  | [] => inferInstanceAs (Decidable True)
  | token :: tokens =>
    have := decidableGroupsFilled (some token.kind) tokens
    inferInstanceAs (Decidable ((token.kind = .openParen → previous ≠ some .functionName →
      ∀ next ∈ tokens.head?, next.kind ≠ .closeParen) ∧ GroupsFilled (some token.kind) tokens))

/-- What stands before tokens matters only if it is the name of a function. -/
theorem groupsFilled_iff_none {previous : Option TokenKind} (h : previous ≠ some .functionName)
    (tokens : List Token) : GroupsFilled previous tokens ↔ GroupsFilled none tokens := by
  cases tokens with
  | nil => rfl
  | cons token tokens => simp [GroupsFilled, h]

theorem groupsFilled_cons {token : Token} (hopening : token.kind ≠ .openParen)
    (hname : token.kind ≠ .functionName) (tokens : List Token) :
    GroupsFilled none (token :: tokens) ↔ GroupsFilled none tokens := by
  rw [GroupsFilled, groupsFilled_iff_none (by simpa using hname)]
  simp [hopening]

theorem groupsFilled_group (opening : TokenOf .openParen) (tokens : List Token) :
    GroupsFilled none (opening.val :: tokens) ↔
      (∀ next ∈ tokens.head?, next.kind ≠ .closeParen) ∧ GroupsFilled none tokens := by
  rw [GroupsFilled, groupsFilled_iff_none (by simp [opening.property])]
  simp [opening.property]

theorem groupsFilled_call (name : TokenOf .functionName) (opening : TokenOf .openParen)
    (tokens : List Token) :
    GroupsFilled none (name.val :: opening.val :: tokens) ↔ GroupsFilled none tokens := by
  rw [GroupsFilled, GroupsFilled, groupsFilled_iff_none (by simp [opening.property])]
  simp [name.property]

/-- Where no operand is missing, something is written, and it begins with no closing parenthesis. -/
theorem Phrase.exists_head : (phrase : Phrase) → phrase.Finished →
    ∃ first rest, phrase.spelling = first :: rest ∧ first.kind ≠ .closeParen
  | .missing, h => h.elim
  | .leaf operand, _ => ⟨operand.token, [], rfl, operand.kind_ne rfl⟩
  | .hollow opening _, _ | .group opening .., _ => ⟨opening.val, _, rfl, by simp [opening.property]⟩
  | .prefixed sign _, _ => ⟨sign.val, _, rfl, by simp [sign.property]⟩
  | .infixed sign left right, h => by
    obtain ⟨first, rest, hleft, hfirst⟩ := left.exists_head h.1
    exact ⟨first, rest ++ sign.spelling ++ right.spelling, by simp [Phrase.spelling, hleft], hfirst⟩
  | .bareCall name .., _ | .call name .., _ => ⟨name.val, _, rfl, by simp [name.property]⟩

theorem Arguments.exists_head : (arguments : Arguments) → arguments.Finished →
    ∃ first rest, arguments.spelling = first :: rest ∧ first.kind ≠ .closeParen
  | .last phrase, h => phrase.exists_head h
  | .more phrase comma arguments, h => by
    obtain ⟨first, rest, hphrase, hfirst⟩ := phrase.exists_head h.1
    exact ⟨first, rest ++ comma.val :: arguments.spelling, by simp [Arguments.spelling, hphrase],
      hfirst⟩

mutual
/-- A phrase in which no operand is missing stands for a term if and only if its
groups hold something. -/
theorem Phrase.groupsFilled_iff {rest : List Token} : (phrase : Phrase) → phrase.Finished →
    (GroupsFilled none (phrase.spelling ++ rest) ↔
      phrase.term?.isSome = true ∧ GroupsFilled none rest)
  | .missing, h => h.elim
  | .leaf leaf, _ => by
    simpa [Phrase.spelling, Phrase.term?] using
      groupsFilled_cons (leaf.kind_ne rfl) (leaf.kind_ne rfl) rest
  | .hollow opening closing, _ => by
    rw [Phrase.spelling, List.cons_append, groupsFilled_group]
    simp [Phrase.term?, closing.property]
  | .group opening inner closing, h => by
    obtain ⟨first, more, hinner, hfirst⟩ := inner.exists_head h
    rw [Phrase.spelling, List.cons_append, List.append_assoc, groupsFilled_group,
      inner.groupsFilled_iff h, List.singleton_append,
      groupsFilled_cons (by simp [closing.property]) (by simp [closing.property])]
    simp [hinner, hfirst, Phrase.term?]
  | .prefixed sign operand, h => by
    rw [Phrase.spelling, List.cons_append,
      groupsFilled_cons (by simp [sign.property]) (by simp [sign.property]),
      operand.groupsFilled_iff h, Phrase.term?]
    cases operand.term? <;> simp
  | .infixed sign left right, h => by
    have hsign : GroupsFilled none (sign.spelling ++ (right.spelling ++ rest)) ↔
        GroupsFilled none (right.spelling ++ rest) := by
      cases sign with
      | written token =>
        exact groupsFilled_cons (by simp [token.property]) (by simp [token.property]) _
      | implied offset => rfl
    rw [Phrase.spelling, List.append_assoc, List.append_assoc, left.groupsFilled_iff h.1, hsign,
      right.groupsFilled_iff h.2, Phrase.term?]
    cases left.term? <;> cases right.term? <;> simp
  | .bareCall name opening closing, _ => by
    rw [Phrase.spelling, List.cons_append, List.cons_append, groupsFilled_call,
      List.singleton_append,
      groupsFilled_cons (by simp [closing.property]) (by simp [closing.property])]
    simp [Phrase.term?]
  | .call name opening arguments closing, h => by
    rw [Phrase.spelling, List.cons_append, List.cons_append, groupsFilled_call, List.append_assoc,
      arguments.groupsFilled_iff h, List.singleton_append,
      groupsFilled_cons (by simp [closing.property]) (by simp [closing.property]), Phrase.term?]
    cases arguments.terms? <;> simp
theorem Arguments.groupsFilled_iff {rest : List Token} :
    (arguments : Arguments) → arguments.Finished →
    (GroupsFilled none (arguments.spelling ++ rest) ↔
      arguments.terms?.isSome = true ∧ GroupsFilled none rest)
  | .last phrase, h => by
    rw [Arguments.spelling, phrase.groupsFilled_iff h, Arguments.terms?]
    cases phrase.term? <;> simp
  | .more phrase comma arguments, h => by
    rw [Arguments.spelling, List.append_assoc, phrase.groupsFilled_iff h.1, List.cons_append,
      groupsFilled_cons (by simp [comma.property]) (by simp [comma.property]),
      arguments.groupsFilled_iff h.2, Arguments.terms?]
    cases phrase.term? <;> cases arguments.terms? <;> simp
end

mutual
/-- Commas and closing parentheses are not listed. -/
theorem Phrase.kind_of_mem_listing : (phrase : Phrase) → ∀ token ∈ phrase.listing,
    token.kind ≠ .comma ∧ token.kind ≠ .closeParen
  | .missing | .hollow .. => by simp [Phrase.listing]
  | .leaf leaf => by
    simp only [Phrase.listing, List.mem_singleton, forall_eq]
    exact ⟨leaf.kind_ne rfl, leaf.kind_ne rfl⟩
  | .group _ inner _ => inner.kind_of_mem_listing
  | .prefixed sign operand => by
    simp only [Phrase.listing, List.forall_mem_append, List.mem_singleton, forall_eq, sign.property]
    exact ⟨operand.kind_of_mem_listing, by simp⟩
  | .infixed sign left right => by
    simp only [Phrase.listing, List.forall_mem_append, List.mem_singleton, forall_eq,
      sign.token.property]
    exact ⟨⟨left.kind_of_mem_listing, right.kind_of_mem_listing⟩, by simp⟩
  | .bareCall name opening _ => by simp [Phrase.listing, name.property, opening.property]
  | .call name opening arguments _ => by
    simp only [Phrase.listing, List.forall_mem_cons, List.forall_mem_append, List.mem_singleton,
      forall_eq, name.property, opening.property]
    exact ⟨by simp, arguments.kind_of_mem_listing, by simp⟩
theorem Arguments.kind_of_mem_listing : (arguments : Arguments) → ∀ token ∈ arguments.listing,
    token.kind ≠ .comma ∧ token.kind ≠ .closeParen
  | .last phrase => phrase.kind_of_mem_listing
  | .more phrase _ rest => by
    rw [Arguments.listing, List.forall_mem_append]
    exact ⟨phrase.kind_of_mem_listing, rest.kind_of_mem_listing⟩
end

end Formula
