import Formula.Token

/-! # Terms and their listing

An expression as a tree of tokens, and the order in which reverse Polish notation lists its tokens.
The marks of argument lists make every listing readable in one way only, whatever the number of
arguments: a shelf of terms that takes in the tokens one after another ends with the one term that
they list.
-/
namespace Formula

abbrev TokenOf (kind : TokenKind) := { token : Token // token.kind = kind }

def TokenKind.isLeaf : TokenKind → Bool
  | number | hexadecimal | text | variableName => true
  | _ => false

structure Leaf where
  token : Token
  isLeaf : token.kind.isLeaf = true

theorem Leaf.kind_ne (leaf : Leaf) {kind : TokenKind} (h : kind.isLeaf = false) :
    leaf.token.kind ≠ kind := by
  rintro rfl
  simp [leaf.isLeaf] at h

theorem Leaf.endsOperand (leaf : Leaf) : leaf.token.kind.endsOperand = true := by
  have hleaf := leaf.isLeaf
  generalize leaf.token.kind = kind at hleaf
  cases kind <;> first | rfl | cases hleaf

theorem Leaf.isOperator (leaf : Leaf) : leaf.token.kind.isOperator = false := by
  have hleaf := leaf.isLeaf
  generalize leaf.token.kind = kind at hleaf
  cases kind <;> first | rfl | cases hleaf

inductive Term where
  | atom (leaf : Leaf)
  | prefixed (sign : TokenOf .unaryOperator) (operand : Term)
  | infixed (sign : TokenOf .operator) (left right : Term)
  /-- A call; `mark` is the parenthesis that opens its arguments. -/
  | call (mark : TokenOf .openParen) (name : TokenOf .functionName) (arguments : List Term)

namespace Term

mutual
/-- The tokens of a term in the order of reverse Polish notation. -/
def listing : Term → List Token
  | .atom leaf => [leaf.token]
  | .prefixed sign operand => operand.listing ++ [sign.val]
  | .infixed sign left right => left.listing ++ right.listing ++ [sign.val]
  | .call mark name arguments => mark.val :: (listings arguments ++ [name.val])
def listings : List Term → List Token
  | [] => []
  | term :: terms => term.listing ++ listings terms
end

@[simp] theorem listings_append (terms more : List Term) :
    listings (terms ++ more) = listings terms ++ listings more := by
  induction terms with
  | nil => simp [listings]
  | cons term terms ih => simp [listings, ih]

end Term

/-- Terms that wait for their operator or function: those of the innermost open argument list, and
those that stand before the mark of each open list; the latest first. -/
structure Shelf where
  current : List Term
  outer : List (TokenOf .openParen × List Term)

namespace Shelf

open Term

def empty : Shelf := ⟨[], []⟩

def add (shelf : Shelf) (term : Term) : Shelf := { shelf with current := term :: shelf.current }

def addAll (shelf : Shelf) (terms : List Term) : Shelf :=
  { shelf with current := terms.reverse ++ shelf.current }

/-- Takes in one token: a leaf is put on the shelf, an operator takes its operands off it, a
function takes the terms after the nearest mark. -/
def step (shelf : Shelf) (token : Token) : Option Shelf :=
  match h : token.kind with
  | .number | .hexadecimal | .text | .variableName =>
    some (shelf.add (.atom ⟨token, by simp [h, TokenKind.isLeaf]⟩))
  | .unaryOperator =>
    match shelf.current with
    | operand :: rest => some ⟨.prefixed ⟨token, h⟩ operand :: rest, shelf.outer⟩
    | [] => none
  | .operator =>
    match shelf.current with
    | right :: left :: rest => some ⟨.infixed ⟨token, h⟩ left right :: rest, shelf.outer⟩
    | _ => none
  | .functionName =>
    match shelf.outer with
    | (mark, before) :: outer =>
      some ⟨.call mark ⟨token, h⟩ shelf.current.reverse :: before, outer⟩
    | [] => none
  | .openParen => some ⟨[], (⟨token, h⟩, shelf.current) :: shelf.outer⟩
  | .closeParen | .comma => none

def run (shelf : Shelf) : List Token → Option Shelf
  | [] => some shelf
  | token :: tokens => (shelf.step token).bind fun shelf => shelf.run tokens

@[simp] theorem run_nil (shelf : Shelf) : shelf.run [] = some shelf := rfl

theorem run_append (shelf : Shelf) (tokens more : List Token) :
    shelf.run (tokens ++ more) = (shelf.run tokens).bind fun shelf => shelf.run more := by
  induction tokens generalizing shelf with
  | nil => rfl
  | cons token tokens ih =>
    rw [List.cons_append, run, run]
    cases shelf.step token with
    | none => rfl
    | some next => exact ih next

@[simp] theorem run_singleton (shelf : Shelf) (token : Token) :
    shelf.run [token] = shelf.step token := by
  rw [run]
  cases shelf.step token <;> rfl

@[simp] theorem step_leaf (shelf : Shelf) (leaf : Leaf) :
    shelf.step leaf.token = some (shelf.add (.atom leaf)) := by
  obtain ⟨⟨kind, surface, offset⟩, isLeaf⟩ := leaf
  cases kind <;> first | rfl | exact absurd isLeaf (by simp [TokenKind.isLeaf])

@[simp] theorem step_prefixed (sign : TokenOf .unaryOperator) (operand : Term) (rest : List Term)
    (outer : List (TokenOf .openParen × List Term)) :
    step ⟨operand :: rest, outer⟩ sign.val = some ⟨.prefixed sign operand :: rest, outer⟩ := by
  obtain ⟨⟨kind, surface, offset⟩, h⟩ := sign
  cases h
  rfl

@[simp] theorem step_infixed (sign : TokenOf .operator) (left right : Term) (rest : List Term)
    (outer : List (TokenOf .openParen × List Term)) :
    step ⟨right :: left :: rest, outer⟩ sign.val =
      some ⟨.infixed sign left right :: rest, outer⟩ := by
  obtain ⟨⟨kind, surface, offset⟩, h⟩ := sign
  cases h
  rfl

@[simp] theorem step_mark (shelf : Shelf) (mark : TokenOf .openParen) :
    shelf.step mark.val = some ⟨[], (mark, shelf.current) :: shelf.outer⟩ := by
  obtain ⟨⟨kind, surface, offset⟩, h⟩ := mark
  cases h
  rfl

@[simp] theorem step_name (name : TokenOf .functionName) (mark : TokenOf .openParen)
    (current before : List Term) (outer : List (TokenOf .openParen × List Term)) :
    step ⟨current, (mark, before) :: outer⟩ name.val =
      some ⟨.call mark name current.reverse :: before, outer⟩ := by
  obtain ⟨⟨kind, surface, offset⟩, h⟩ := name
  cases h
  rfl

mutual
/-- A listed term ends up on the shelf, whatever follows its listing. -/
theorem run_listing (shelf : Shelf) (rest : List Token) :
    (term : Term) → shelf.run (term.listing ++ rest) = (shelf.add term).run rest
  | .atom leaf => by simp [listing, run]
  | .prefixed sign operand => by
    rw [listing, List.append_assoc, run_listing shelf _ operand]
    simp [run, add]
  | .infixed sign left right => by
    rw [listing, List.append_assoc, List.append_assoc, run_listing shelf _ left,
      run_listing (shelf.add left) _ right]
    simp [run, add]
  | .call mark name arguments => by
    rw [listing, List.cons_append, List.append_assoc, run, step_mark, Option.bind_some,
      run_listings _ _ arguments]
    simp [run, add, addAll]
theorem run_listings (shelf : Shelf) (rest : List Token) :
    (terms : List Term) → shelf.run (listings terms ++ rest) = (shelf.addAll terms).run rest
  | [] => by simp [listings, addAll]
  | term :: terms => by
    rw [listings, List.append_assoc, run_listing shelf _ term, run_listings _ _ terms]
    simp [add, addAll]
end

def listing (shelf : Shelf) : List Token :=
  around shelf.outer ++ listings shelf.current.reverse
where
  around : List (TokenOf .openParen × List Term) → List Token
    | [] => []
    | (mark, before) :: outer => around outer ++ listings before.reverse ++ [mark.val]

/-- No token is lost on the way to the shelf, and none changes its place. -/
theorem step_listing {shelf next : Shelf} {token : Token} (h : shelf.step token = some next) :
    next.listing = shelf.listing ++ [token] := by
  unfold step at h
  split at h
  iterate 4
    · obtain rfl := Option.some.inj h
      simp [listing, listings, Term.listing, add]
  · split at h
    next operand rest hcurrent =>
      obtain rfl := Option.some.inj h
      simp [listing, listings, Term.listing, hcurrent]
    next => cases h
  · split at h
    next right left rest hcurrent =>
      obtain rfl := Option.some.inj h
      simp [listing, listings, Term.listing, hcurrent]
    next => cases h
  · split at h
    next mark before outer houter =>
      obtain rfl := Option.some.inj h
      simp [listing, listing.around, listings, Term.listing, houter]
    next => cases h
  · obtain rfl := Option.some.inj h
    simp [listing, listing.around, listings]
  all_goals cases h

theorem run_listed {shelf last : Shelf} {tokens : List Token} (h : shelf.run tokens = some last) :
    last.listing = shelf.listing ++ tokens := by
  induction tokens generalizing shelf with
  | nil => simp_all
  | cons token tokens ih =>
    obtain ⟨next, hstep, hrun⟩ := Option.bind_eq_some_iff.mp h
    rw [ih hrun, step_listing hstep, List.append_assoc, List.singleton_append]

end Shelf

/-- A listing can be read in one way only. -/
theorem Term.listing_injective {term other : Term} (h : term.listing = other.listing) :
    term = other := by
  have hterm := Shelf.run_listing .empty [] term
  have hother := Shelf.run_listing .empty [] other
  rw [h, hother] at hterm
  simpa [Shelf.add, Shelf.empty] using hterm.symm

end Formula
