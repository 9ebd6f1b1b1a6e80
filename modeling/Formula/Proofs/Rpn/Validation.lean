import Formula.Rpn
import Formula.Proofs.Rpn.Term
import Formula.Proofs.Failure.Place

/-! # What validation accepts

Validation counts operands where a shelf keeps terms: the counts are the numbers of terms between
the marks. A listing is accepted if and only if it is that of a term whose calls are all to
registered functions, with as many arguments as they take.
-/
namespace Formula

def Registry.Accepts (registry : Registry) (name : String) (arguments : Nat) : Prop :=
  ∃ f, registry.function? name = some f ∧ (f.variadic = false → (arguments : Int) = f.arity)

namespace Term

mutual
/-- Every call is to a registered function that takes so many arguments. -/
def Callable (registry : Registry) : Term → Prop
  | .atom _ => True
  | .prefixed _ operand => operand.Callable registry
  | .infixed _ left right => left.Callable registry ∧ right.Callable registry
  | .call _ name arguments =>
    registry.Accepts name.val.surface arguments.length ∧ AllCallable registry arguments
def AllCallable (registry : Registry) : List Term → Prop
  | [] => True
  | term :: terms => term.Callable registry ∧ AllCallable registry terms
end

theorem allCallable_iff {registry : Registry} {terms : List Term} :
    AllCallable registry terms ↔ ∀ term ∈ terms, term.Callable registry := by
  induction terms with
  | nil => simp [AllCallable]
  | cons term terms ih => simp [AllCallable, ih]

end Term

namespace Rpn

open Term

variable {registry : Registry}

@[simp] theorem countToken_leaf (scopes : Scopes) (leaf : Leaf) :
    countToken registry scopes leaf.token = .ok { scopes with current := scopes.current + 1 } := by
  obtain ⟨⟨kind, surface, offset⟩, isLeaf⟩ := leaf
  cases kind <;> first | rfl | exact absurd isLeaf (by simp [TokenKind.isLeaf])

@[simp] theorem countToken_prefixed (sign : TokenOf .unaryOperator) (count : Nat)
    (outer : List Nat) :
    countToken registry ⟨count + 1, outer⟩ sign.val = .ok ⟨count + 1, outer⟩ := by
  obtain ⟨⟨kind, surface, offset⟩, h⟩ := sign
  cases h
  simp [countToken]

@[simp] theorem countToken_infixed (sign : TokenOf .operator) (count : Nat) (outer : List Nat) :
    countToken registry ⟨count + 2, outer⟩ sign.val = .ok ⟨count + 1, outer⟩ := by
  obtain ⟨⟨kind, surface, offset⟩, h⟩ := sign
  cases h
  have hcount : ¬ count + 2 < 2 := by omega
  simp [countToken, hcount]

@[simp] theorem countToken_mark (mark : TokenOf .openParen) (scopes : Scopes) :
    countToken registry scopes mark.val = .ok ⟨0, scopes.current :: scopes.outer⟩ := by
  obtain ⟨⟨kind, surface, offset⟩, h⟩ := mark
  cases h
  rfl

/-- A function is let pass where it accepts its arguments and its argument list was opened. -/
theorem countToken_name_eq_ok_iff {name : TokenOf .functionName} {scopes counted : Scopes} :
    countToken registry scopes name.val = .ok counted ↔
      registry.Accepts name.val.surface scopes.current ∧
        ∃ count outer, scopes.outer = count :: outer ∧ counted = ⟨count + 1, outer⟩ := by
  obtain ⟨⟨kind, surface, offset⟩, h⟩ := name
  cases h
  simp only [countToken, Registry.Accepts]
  cases hf : registry.function? surface with
  | none => simp
  | some f =>
    have hpass : (f.variadic = false → (scopes.current : Int) = f.arity) ↔
        ¬ (!f.variadic && (scopes.current : Int) != f.arity) = true := by
      cases f.variadic <;> simp
    simp only [Option.some.injEq, exists_eq_left', hpass]
    split
    next hrefused => simp [hrefused]
    next hpassed =>
      cases houter : scopes.outer with
      | nil => simp [hpassed]
      | cons count outer =>
        constructor
        · intro h
          cases h
          exact ⟨hpassed, count, outer, rfl, rfl⟩
        · rintro ⟨-, _, _, hscopes, rfl⟩
          cases hscopes
          rfl

@[simp] theorem countTokens_cons (scopes : Scopes) (token : Token) (tokens : List Token) :
    countTokens registry scopes (token :: tokens) =
      (countToken registry scopes token).bind fun scopes =>
        countTokens registry scopes tokens := rfl

mutual
/-- A listed term counts as one operand, whatever follows its listing. -/
theorem countTokens_listing (count : Nat) (outer : List Nat) (rest : List Token) :
    (term : Term) → term.Callable registry →
      countTokens registry ⟨count, outer⟩ (term.listing ++ rest) =
        countTokens registry ⟨count + 1, outer⟩ rest
  | .atom leaf, _ => by simp [listing, Except.bind]
  | .prefixed sign operand, h => by
    rw [listing, List.append_assoc, countTokens_listing _ _ _ operand h]
    simp [Except.bind]
  | .infixed sign left right, h => by
    rw [listing, List.append_assoc, List.append_assoc, countTokens_listing _ _ _ left h.1,
      countTokens_listing _ _ _ right h.2]
    simp [Except.bind]
  | .call mark name arguments, h => by
    rw [listing, List.cons_append, List.append_assoc, countTokens_cons, countToken_mark,
      Except.bind, countTokens_listings _ _ _ arguments h.2, Nat.zero_add, List.singleton_append,
      countTokens_cons, countToken_name_eq_ok_iff.mpr ⟨h.1, _, _, rfl, rfl⟩, Except.bind]
theorem countTokens_listings (count : Nat) (outer : List Nat) (rest : List Token) :
    (terms : List Term) → AllCallable registry terms →
      countTokens registry ⟨count, outer⟩ (listings terms ++ rest) =
        countTokens registry ⟨count + terms.length, outer⟩ rest
  | [], _ => by simp [listings]
  | term :: terms, h => by
    rw [listings, List.append_assoc, countTokens_listing _ _ _ term h.1,
      countTokens_listings _ _ _ terms h.2, List.length_cons, Nat.add_right_comm, Nat.add_assoc]
end

end Rpn

namespace Shelf

def scopes (shelf : Shelf) : Rpn.Scopes :=
  ⟨shelf.current.length, shelf.outer.map fun scope => scope.2.length⟩

def Callable (registry : Registry) (shelf : Shelf) : Prop :=
  (∀ term ∈ shelf.current, term.Callable registry) ∧
    ∀ scope ∈ shelf.outer, ∀ term ∈ scope.2, term.Callable registry

open Term

variable {registry : Registry}

/-- Where the counts let a token pass, the shelf takes it in. -/
theorem step_of_countToken {shelf : Shelf} {token : Token} {counted : Rpn.Scopes}
    (hcomma : token.kind ≠ .comma) (hclose : token.kind ≠ .closeParen)
    (hshelf : shelf.Callable registry)
    (h : Rpn.countToken registry shelf.scopes token = .ok counted) :
    ∃ next, shelf.step token = some next ∧ next.scopes = counted ∧ next.Callable registry := by
  obtain ⟨current, outer⟩ := shelf
  obtain ⟨kind, surface, offset⟩ := token
  obtain ⟨hcurrent, houter⟩ := hshelf
  cases kind with
  | number | hexadecimal | text | variableName =>
    cases h
    refine ⟨_, rfl, by simp [scopes, add], ?_, houter⟩
    exact List.forall_mem_cons.mpr ⟨trivial, hcurrent⟩
  | unaryOperator =>
    cases current with
    | nil => simp [Rpn.countToken, scopes] at h
    | cons operand rest =>
      cases h
      refine ⟨_, rfl, by simp [scopes], ?_, houter⟩
      simpa only [List.forall_mem_cons, Term.Callable] using hcurrent
  | operator =>
    rcases current with _ | ⟨right, _ | ⟨left, rest⟩⟩
    · simp [Rpn.countToken, scopes] at h
      split at h <;> cases h
    · simp [Rpn.countToken, scopes] at h
      split at h <;> cases h
    · have hcount : ¬ rest.length + 1 + 1 < 2 := by omega
      simp only [Rpn.countToken, scopes, List.length_cons, if_neg hcount, Except.ok.injEq] at h
      refine ⟨_, rfl, by simpa [scopes] using h, ?_, houter⟩
      simp only [List.forall_mem_cons, Term.Callable] at hcurrent ⊢
      exact ⟨⟨hcurrent.2.1, hcurrent.1⟩, hcurrent.2.2⟩
  | functionName =>
    let name : TokenOf .functionName := ⟨⟨.functionName, surface, offset⟩, rfl⟩
    have hname : Rpn.countToken registry (scopes ⟨current, outer⟩) name.val = .ok counted := h
    obtain ⟨haccepts, count, counts, hcounts, rfl⟩ := Rpn.countToken_name_eq_ok_iff.mp hname
    cases outer with
    | nil => cases hcounts
    | cons scope outer =>
      obtain ⟨mark, before⟩ := scope
      cases hcounts
      refine ⟨_, rfl, by simp [scopes], ?_, fun scope hscope => houter scope (.tail _ hscope)⟩
      refine List.forall_mem_cons.mpr ⟨⟨by simpa [scopes] using haccepts, ?_⟩, houter _ (.head _)⟩
      exact allCallable_iff.mpr fun term hterm => hcurrent term (List.mem_reverse.mp hterm)
  | openParen =>
    cases h
    refine ⟨_, rfl, by simp [scopes], by simp, ?_⟩
    exact List.forall_mem_cons.mpr ⟨hcurrent, houter⟩
  | closeParen => exact absurd rfl hclose
  | comma => exact absurd rfl hcomma

theorem run_of_countTokens {shelf : Shelf} {tokens : List Token} {counted : Rpn.Scopes}
    (hkinds : ∀ token ∈ tokens, token.kind ≠ .comma ∧ token.kind ≠ .closeParen)
    (hshelf : shelf.Callable registry)
    (h : Rpn.countTokens registry shelf.scopes tokens = .ok counted) :
    ∃ last, shelf.run tokens = some last ∧ last.scopes = counted ∧ last.Callable registry := by
  induction tokens generalizing shelf with
  | nil =>
    cases h
    exact ⟨shelf, rfl, rfl, hshelf⟩
  | cons token tokens ih =>
    obtain ⟨hkind, hkinds⟩ := List.forall_mem_cons.mp hkinds
    obtain ⟨scopes, hcount, hcounts⟩ := exists_of_bind_eq_ok h
    obtain ⟨next, hstep, rfl, hnext⟩ := step_of_countToken hkind.1 hkind.2 hshelf hcount
    obtain ⟨last, hrun, hlast⟩ := ih hkinds hnext hcounts
    exact ⟨last, by rw [run, hstep, Option.bind_some, hrun], hlast⟩

end Shelf

namespace Rpn

variable {registry : Registry}

/-- Validation asks for one operand and no open argument list in the end. -/
theorem validate_eq_ok_iff_count {rpn : List Token} :
    validate registry rpn = .ok () ↔ countTokens registry ⟨0, []⟩ rpn = .ok ⟨1, []⟩ := by
  unfold validate
  cases hcount : countTokens registry ⟨0, []⟩ rpn with
  | error failure => simp [bind, Except.bind]
  | ok scopes =>
    obtain ⟨current, outer⟩ := scopes
    cases outer with
    | cons => simp [bind, Except.bind]
    | nil =>
      simp only [bind, Except.bind, List.isEmpty_nil, Bool.not_true, Bool.false_eq_true, ↓reduceIte,
        Except.ok.injEq, Scopes.mk.injEq, and_true]
      split
      · simp; omega
      · split
        · simp; omega
        · simp; omega

theorem validate_listing {term : Term} (h : term.Callable registry) :
    validate registry term.listing = .ok () := by
  rw [validate_eq_ok_iff_count, ← List.append_nil term.listing, countTokens_listing _ _ _ term h]
  rfl

/-- The terms that a shelf with one count of one holds. -/
theorem exists_term_of_validate {rpn : List Token}
    (hkinds : ∀ token ∈ rpn, token.kind ≠ .comma ∧ token.kind ≠ .closeParen)
    (h : validate registry rpn = .ok ()) :
    ∃ term : Term, term.listing = rpn ∧ term.Callable registry := by
  rw [validate_eq_ok_iff_count] at h
  have hempty : Shelf.empty.Callable registry := by simp [Shelf.Callable, Shelf.empty]
  obtain ⟨⟨current, outer⟩, hrun, hscopes, hcallable⟩ := Shelf.run_of_countTokens hkinds hempty h
  have hlisted := Shelf.run_listed hrun
  simp only [Shelf.scopes, Scopes.mk.injEq, List.map_eq_nil_iff, List.length_eq_one_iff] at hscopes
  obtain ⟨⟨term, rfl⟩, rfl⟩ := hscopes
  refine ⟨term, ?_, hcallable.1 term List.mem_cons_self⟩
  simpa [Shelf.listing, Shelf.listing.around, Shelf.empty, Term.listings] using hlisted

end Rpn

end Formula
