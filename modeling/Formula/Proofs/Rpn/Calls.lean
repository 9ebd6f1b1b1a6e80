import Mathlib.Data.List.Forall2
import Formula.Proofs.Rpn.Phrase

/-! # Calls and their arguments

The calls of a phrase and those of the terms that its listing makes are the same calls in the same
order. A call has as many arguments as are written, less the operands that the written arguments
lack. Where they lack none, its arguments are the terms of those that are written.
-/
namespace Formula

structure Call where
  mark : TokenOf .openParen
  name : TokenOf .functionName
  arguments : List Term

namespace Term

mutual
/-- The calls of a term in the order of its listing. -/
def calls : Term → List Call
  | .atom _ => []
  | .prefixed _ operand => operand.calls
  | .infixed _ left right => left.calls ++ right.calls
  | .call mark name arguments => allCalls arguments ++ [⟨mark, name, arguments⟩]
def allCalls : List Term → List Call
  | [] => []
  | term :: terms => term.calls ++ allCalls terms
end

@[simp] theorem allCalls_append (terms more : List Term) :
    allCalls (terms ++ more) = allCalls terms ++ allCalls more := by
  induction terms with
  | nil => rfl
  | cons term terms ih => simp [allCalls, ih]

mutual
/-- The names in a listing are those of the calls. -/
theorem map_name_calls : (term : Term) →
    term.calls.map (·.name.val) = term.listing.filter (·.kind == .functionName)
  | .atom leaf => by
    have hname : leaf.token.kind ≠ .functionName := leaf.kind_ne rfl
    simp [calls, listing, hname]
  | .prefixed sign operand => by simp [calls, listing, sign.property, operand.map_name_calls]
  | .infixed sign left right => by
    simp [calls, listing, sign.property, left.map_name_calls, right.map_name_calls]
  | .call mark name arguments => by
    simp [calls, listing, mark.property, name.property, map_name_allCalls arguments]
theorem map_name_allCalls : (terms : List Term) →
    (allCalls terms).map (·.name.val) = (listings terms).filter (·.kind == .functionName)
  | [] => rfl
  | term :: terms => by simp [allCalls, listings, term.map_name_calls, map_name_allCalls terms]
end

end Term

/-- A call as it is written; `arguments` is absent where nothing stands between the parentheses. -/
structure WrittenCall where
  name : TokenOf .functionName
  opening : TokenOf .openParen
  arguments : Option Arguments
  closing : TokenOf .closeParen

def Arguments.count : Arguments → Nat
  | .last _ => 1
  | .more _ _ rest => rest.count + 1

mutual
def Phrase.calls : Phrase → List WrittenCall
  | .missing | .leaf _ | .hollow .. => []
  | .group _ inner _ => inner.calls
  | .prefixed _ operand => operand.calls
  | .infixed _ left right => left.calls ++ right.calls
  | .bareCall name opening closing => [⟨name, opening, none, closing⟩]
  | .call name opening arguments closing =>
    arguments.calls ++ [⟨name, opening, some arguments, closing⟩]
def Arguments.calls : Arguments → List WrittenCall
  | .last phrase => phrase.calls
  | .more phrase _ rest => phrase.calls ++ rest.calls
end

mutual
/-- Every name of a function is that of a call, but calls are collected as they close. -/
theorem Phrase.map_name_calls : (phrase : Phrase) →
    (phrase.calls.map (·.name.val)).Perm (phrase.spelling.filter (·.kind == .functionName))
  | .missing => .refl _
  | .leaf leaf => by
    have hname : leaf.token.kind ≠ .functionName := leaf.kind_ne rfl
    simp [Phrase.calls, Phrase.spelling, hname]
  | .hollow opening closing => by
    simp [Phrase.calls, Phrase.spelling, opening.property, closing.property]
  | .group opening inner closing => by
    simpa [Phrase.calls, Phrase.spelling, opening.property, closing.property] using
      inner.map_name_calls
  | .prefixed sign operand => by
    simpa [Phrase.calls, Phrase.spelling, sign.property] using operand.map_name_calls
  | .infixed sign left right => by
    have hsign : sign.spelling.filter (·.kind == .functionName) = [] := by
      cases sign with
      | written token => simp [Sign.spelling, token.property]
      | implied offset => rfl
    simpa [Phrase.calls, Phrase.spelling, hsign] using
      left.map_name_calls.append right.map_name_calls
  | .bareCall name opening closing => by
    simp [Phrase.calls, Phrase.spelling, name.property, opening.property, closing.property]
  | .call name opening arguments closing => by
    simpa [Phrase.calls, Phrase.spelling, name.property, opening.property, closing.property] using
      (List.perm_append_singleton name.val _).trans (arguments.map_name_calls.cons name.val)
theorem Arguments.map_name_calls : (arguments : Arguments) →
    (arguments.calls.map (·.name.val)).Perm (arguments.spelling.filter (·.kind == .functionName))
  | .last phrase => phrase.map_name_calls
  | .more phrase comma rest => by
    simpa [Arguments.calls, Arguments.spelling, comma.property] using
      phrase.map_name_calls.append rest.map_name_calls
end

namespace WrittenCall

def count (written : WrittenCall) : Nat := written.arguments.elim 0 Arguments.count

def gaps (written : WrittenCall) : Nat := written.arguments.elim 0 Arguments.gaps

def terms? (written : WrittenCall) : Option (List Term) :=
  written.arguments.elim (some []) Arguments.terms?

def listing (written : WrittenCall) : List Token := written.arguments.elim [] Arguments.listing

theorem listing_of_terms? {written : WrittenCall} {terms : List Term}
    (h : written.terms? = some terms) :
    written.listing = Term.listings terms := by
  obtain ⟨name, opening, arguments, closing⟩ := written
  cases arguments with
  | none =>
    cases h
    rfl
  | some arguments => exact arguments.listing_of_terms? h

structure Makes (written : WrittenCall) (call : Call) : Prop where
  name : call.name = written.name
  mark : call.mark = written.opening
  arguments : call.arguments.length + written.gaps = written.count
  terms : ∀ terms, written.terms? = some terms → call.arguments = terms

/-- As many arguments are received as are written where none of these lacks an operand. -/
theorem forall₂_count_iff {written : List WrittenCall} {calls : List Call}
    (h : List.Forall₂ Makes written calls) :
    List.Forall₂ (fun written call => call.arguments.length = written.count) written calls ↔
      ∀ call ∈ written, call.gaps = 0 := by
  induction h with
  | nil => simp
  | cons hmakes _ ih =>
    have harguments := hmakes.arguments
    rw [List.forall₂_cons, List.forall_mem_cons, ih]
    exact and_congr_left' ⟨fun h => by omega, fun h => by omega⟩

end WrittenCall

namespace Shelf

open Term

def calls (shelf : Shelf) : List Call := around shelf.outer ++ allCalls shelf.current.reverse
where
  around : List (TokenOf .openParen × List Term) → List Call
    | [] => []
    | (_, before) :: outer => around outer ++ allCalls before.reverse

/-- The step from `shelf` to `next` adds as many operands, less the gaps, and
makes the written calls. -/
structure Grown (shelf next : Shelf) (operands gaps : Nat) (written : List WrittenCall) : Prop where
  outer : next.outer = shelf.outer
  count : next.current.length + gaps = shelf.current.length + operands
  calls : ∃ made, next.calls = shelf.calls ++ made ∧ List.Forall₂ WrittenCall.Makes written made

theorem Grown.append {shelf next last : Shelf} {operands more gaps lacking : Nat}
    {written later : List WrittenCall} (h : Grown shelf next operands gaps written)
    (k : Grown next last more lacking later) :
    Grown shelf last (operands + more) (gaps + lacking) (written ++ later) where
  outer := k.outer.trans h.outer
  count := by
    have hcount := h.count
    have kcount := k.count
    omega
  calls := by
    obtain ⟨made, hmade, hmakes⟩ := h.calls
    obtain ⟨further, hfurther, kmakes⟩ := k.calls
    exact ⟨made ++ further, by rw [hfurther, hmade, List.append_assoc],
      List.rel_append hmakes kmakes⟩

theorem Grown.refl (shelf : Shelf) : Grown shelf shelf 0 0 [] := ⟨rfl, rfl, [], by simp, .nil⟩

theorem grown_prefixed {shelf next : Shelf} {sign : TokenOf .unaryOperator}
    (h : shelf.step sign.val = some next) : Grown shelf next 0 0 [] := by
  obtain ⟨current, outer⟩ := shelf
  obtain ⟨⟨kind, surface, offset⟩, hkind⟩ := sign
  cases hkind
  cases current with
  | nil => cases h
  | cons operand rest =>
    cases h
    exact ⟨rfl, rfl, [], by simp [calls, allCalls, Term.calls], .nil⟩

theorem grown_infixed {shelf next : Shelf} {sign : TokenOf .operator}
    (h : shelf.step sign.val = some next) :
    next.outer = shelf.outer ∧ next.current.length + 1 = shelf.current.length ∧
      next.calls = shelf.calls := by
  obtain ⟨current, outer⟩ := shelf
  obtain ⟨⟨kind, surface, offset⟩, hkind⟩ := sign
  cases hkind
  match current with
  | [] | [_] => cases h
  | right :: left :: rest =>
    cases h
    exact ⟨rfl, rfl, by simp [calls, allCalls, Term.calls]⟩

/-- A function takes all that its arguments left on the shelf. -/
theorem grown_call {shelf next last : Shelf} (written : WrittenCall) {inner : List WrittenCall}
    (hrun : run ⟨[], (written.opening, shelf.current) :: shelf.outer⟩ written.listing = some next)
    (hgrown : Grown ⟨[], (written.opening, shelf.current) :: shelf.outer⟩ next
      written.count written.gaps inner)
    (h : next.step written.name.val = some last) : Grown shelf last 1 0 (inner ++ [written]) := by
  obtain ⟨current, outer⟩ := next
  obtain ⟨houter, hcount, made, hmade, hmakes⟩ := hgrown
  obtain rfl : outer = (written.opening, shelf.current) :: shelf.outer := houter
  rw [step_name] at h
  obtain rfl := Option.some.inj h
  obtain rfl : allCalls current.reverse = made := by
    simpa [calls, calls.around, allCalls] using hmade
  refine ⟨rfl, rfl,
    allCalls current.reverse ++ [⟨written.opening, written.name, current.reverse⟩], ?_, ?_⟩
  · simp [calls, allCalls, Term.calls]
  · refine List.rel_append hmakes
      (.cons ⟨rfl, rfl, by simpa using hcount, fun terms hterms => ?_⟩ .nil)
    have hlisted := run_listings ⟨[], (written.opening, shelf.current) :: shelf.outer⟩ [] terms
    rw [List.append_nil, ← WrittenCall.listing_of_terms? hterms, hrun] at hlisted
    obtain rfl : current = terms.reverse := by simpa [addAll] using hlisted
    exact List.reverse_reverse terms

end Shelf

mutual
/-- Wherever it is put on a shelf, the listing of a phrase adds one operand, less the
gaps of the phrase. -/
theorem Phrase.grown {shelf next : Shelf} : (phrase : Phrase) →
    shelf.run phrase.listing = some next → shelf.Grown next 1 phrase.gaps phrase.calls
  | .missing, h | .hollow .., h => by
    obtain rfl := Option.some.inj h
    exact ⟨rfl, rfl, [], by simp, .nil⟩
  | .leaf leaf, h => by
    rw [Phrase.listing, Shelf.run_singleton, Shelf.step_leaf] at h
    obtain rfl := Option.some.inj h
    exact ⟨rfl, rfl, [], by simp [Shelf.calls, Shelf.add, Term.allCalls, Term.calls], .nil⟩
  | .group _ inner _, h => inner.grown h
  | .prefixed sign operand, h => by
    rw [Phrase.listing, Shelf.run_append] at h
    obtain ⟨before, hoperand, hstep⟩ := Option.bind_eq_some_iff.mp h
    rw [Shelf.run_singleton] at hstep
    simpa [Phrase.calls, Phrase.gaps] using
      (operand.grown hoperand).append (Shelf.grown_prefixed hstep)
  | .infixed sign left right, h => by
    rw [Phrase.listing, Shelf.run_append, Shelf.run_append] at h
    obtain ⟨before, hboth, hstep⟩ := Option.bind_eq_some_iff.mp h
    obtain ⟨between, hleft, hright⟩ := Option.bind_eq_some_iff.mp hboth
    rw [Shelf.run_singleton] at hstep
    obtain ⟨houter, hcount, hcalls⟩ := Shelf.grown_infixed hstep
    have hgrown := (left.grown hleft).append (right.grown hright)
    have hoperands := hgrown.count
    exact ⟨houter.trans hgrown.outer, by rw [Phrase.gaps]; omega, hcalls ▸ hgrown.calls⟩
  | .bareCall name opening closing, h => by
    rw [Phrase.listing, Shelf.run, Shelf.step_mark, Option.bind_some, Shelf.run_singleton] at h
    exact Shelf.grown_call ⟨name, opening, none, closing⟩ rfl (.refl _) h
  | .call name opening arguments closing, h => by
    rw [Phrase.listing, Shelf.run, Shelf.step_mark, Option.bind_some, Shelf.run_append] at h
    obtain ⟨before, harguments, hstep⟩ := Option.bind_eq_some_iff.mp h
    rw [Shelf.run_singleton] at hstep
    exact Shelf.grown_call ⟨name, opening, some arguments, closing⟩ harguments
      (arguments.grown harguments) hstep
theorem Arguments.grown {shelf next : Shelf} : (arguments : Arguments) →
    shelf.run arguments.listing = some next →
      shelf.Grown next arguments.count arguments.gaps arguments.calls
  | .last phrase, h => phrase.grown h
  | .more phrase _ rest, h => by
    rw [Arguments.listing, Shelf.run_append] at h
    obtain ⟨between, hphrase, hrest⟩ := Option.bind_eq_some_iff.mp h
    rw [Arguments.count, Nat.add_comm]
    exact (phrase.grown hphrase).append (rest.grown hrest)
end

mutual
/-- A phrase stands for a term if and only if neither it nor a call in it lacks an operand. -/
theorem Phrase.isSome_term?_iff : (phrase : Phrase) →
    (phrase.term?.isSome = true ↔ phrase.gaps = 0 ∧ ∀ written ∈ phrase.calls, written.gaps = 0)
  | .missing | .hollow .. => by simp [Phrase.term?, Phrase.gaps]
  | .leaf leaf => by simp [Phrase.term?, Phrase.gaps, Phrase.calls]
  | .group _ inner _ => inner.isSome_term?_iff
  | .prefixed _ operand => by
    rw [Phrase.gaps, Phrase.calls, ← operand.isSome_term?_iff, Phrase.term?]
    cases operand.term? <;> simp
  | .infixed _ left right => by
    rw [Phrase.gaps, Phrase.calls, List.forall_mem_append, Nat.add_eq_zero_iff, and_and_and_comm,
      ← left.isSome_term?_iff, ← right.isSome_term?_iff, Phrase.term?]
    cases left.term? <;> cases right.term? <;> simp
  | .bareCall name opening closing => by
    simp [Phrase.term?, Phrase.gaps, Phrase.calls, WrittenCall.gaps]
  | .call name opening arguments closing => by
    have harguments := arguments.isSome_terms?_iff
    rw [Phrase.calls, List.forall_mem_append, Phrase.term?]
    cases hterms : arguments.terms? <;> simp_all [Phrase.gaps, WrittenCall.gaps, and_comm]
theorem Arguments.isSome_terms?_iff : (arguments : Arguments) →
    (arguments.terms?.isSome = true ↔ arguments.gaps = 0 ∧
      ∀ written ∈ arguments.calls, written.gaps = 0)
  | .last phrase => by
    rw [Arguments.gaps, Arguments.calls, ← phrase.isSome_term?_iff, Arguments.terms?]
    cases phrase.term? <;> simp
  | .more phrase _ rest => by
    rw [Arguments.gaps, Arguments.calls, List.forall_mem_append, Nat.add_eq_zero_iff,
      and_and_and_comm, ← phrase.isSome_term?_iff, ← rest.isSome_terms?_iff, Arguments.terms?]
    cases phrase.term? <;> cases rest.terms? <;> simp
end

mutual
/-- Where no call lacks an operand, every written argument stands for a term. -/
theorem Phrase.isSome_terms?_of_mem_calls :
    (phrase : Phrase) → (∀ written ∈ phrase.calls, written.gaps = 0) →
    ∀ written ∈ phrase.calls, written.terms?.isSome = true
  | .missing, _ | .leaf _, _ | .hollow .., _ => by simp [Phrase.calls]
  | .group _ inner _, h => inner.isSome_terms?_of_mem_calls h
  | .prefixed _ operand, h => operand.isSome_terms?_of_mem_calls h
  | .infixed _ left right, h => by
    rw [Phrase.calls, List.forall_mem_append] at h ⊢
    exact ⟨left.isSome_terms?_of_mem_calls h.1, right.isSome_terms?_of_mem_calls h.2⟩
  | .bareCall .., _ => by simp [Phrase.calls, WrittenCall.terms?]
  | .call name opening arguments closing, h => by
    rw [Phrase.calls, List.forall_mem_append, List.forall_mem_singleton] at h ⊢
    exact ⟨arguments.isSome_terms?_of_mem_calls h.1, arguments.isSome_terms?_iff.mpr ⟨h.2, h.1⟩⟩
theorem Arguments.isSome_terms?_of_mem_calls : (arguments : Arguments) →
    (∀ written ∈ arguments.calls, written.gaps = 0) →
      ∀ written ∈ arguments.calls, written.terms?.isSome = true
  | .last phrase, h => phrase.isSome_terms?_of_mem_calls h
  | .more phrase _ rest, h => by
    rw [Arguments.calls, List.forall_mem_append] at h ⊢
    exact ⟨phrase.isSome_terms?_of_mem_calls h.1, rest.isSome_terms?_of_mem_calls h.2⟩
end

end Formula
