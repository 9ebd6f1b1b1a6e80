import Formula.Library.Standard
import Formula.Proofs.Rpn.Calls
import Formula.Proofs.Rpn.Reading
import Formula.Proofs.Rpn.Validation

/-! # Parsing is reading by recursive descent

Where every group of a text holds something, parsing succeeds if and only if the tokens can be read
as a term whose calls fit their functions, and gives the listing of this term.
-/
namespace Formula

def Reader.readTerm (registry : Registry) (tokens : List Token) : Option Term :=
  (readAll registry tokens).bind Phrase.term?

namespace Rpn

open Reader

variable {registry : Registry} {tokens rpn : List Token}

theorem checked_eq_ok_iff :
    checked registry tokens = .ok rpn ↔
      ofTokens registry tokens = .ok rpn ∧ validate registry rpn = .ok () := by
  unfold checked
  cases ofTokens registry tokens with
  | error failure => simp [bind, Except.bind]
  | ok listed =>
    cases hvalid : validate registry listed with
    | error failure =>
      simp only [bind, Except.bind, hvalid, reduceCtorEq, Except.ok.injEq, false_iff, not_and]
      rintro rfl
      simp [hvalid]
    | ok =>
      simp only [bind, Except.bind, hvalid, pure, Except.pure, Except.ok.injEq]
      constructor
      · rintro rfl
        exact ⟨rfl, hvalid⟩
      · exact And.left

/-- What parsing accepts was read as a phrase that lacks no operand outside its calls. The term that
its listing lists has the calls of the phrase. -/
theorem exists_phrase_of_checked (hsuccessive : Successive none tokens)
    (h : checked registry tokens = .ok rpn) :
    ∃ (phrase : Phrase) (term : Term),
      readAll registry tokens = some phrase ∧ phrase.spelling = tokens ∧
      phrase.Finished ∧ phrase.gaps = 0 ∧ term.listing = rpn ∧ phrase.listing = rpn ∧
      term.Callable registry ∧ List.Forall₂ WrittenCall.Makes phrase.calls term.calls := by
  obtain ⟨hlisted, hvalid⟩ := checked_eq_ok_iff.mp h
  obtain ⟨-, failure, hfailure⟩ | ⟨phrase, hread, hphrase, hspelling, hfinished⟩ :=
    ofTokens_readAll registry hsuccessive
  · cases hfailure.symm.trans hlisted
  obtain rfl : phrase.listing = rpn := Except.ok.inj (hphrase.symm.trans hlisted)
  obtain ⟨term, hterm, hcallable⟩ := exists_term_of_validate phrase.kind_of_mem_listing hvalid
  have hrun := Shelf.run_listing .empty [] term
  rw [List.append_nil, Shelf.run_nil, hterm] at hrun
  obtain ⟨-, hcount, made, hmade, hmakes⟩ := phrase.grown hrun
  have hgaps : phrase.gaps = 0 := by simpa [Shelf.add, Shelf.empty] using hcount
  obtain rfl : term.calls = made := by
    simpa [Shelf.calls, Shelf.calls.around, Shelf.add, Shelf.empty, Term.allCalls] using hmade
  exact ⟨phrase, term, hread, hspelling, hfinished.resolve_right (by omega), hgaps, hterm, rfl,
    hcallable, hmakes⟩

/-- A text whose groups hold something is parsed if and only if its tokens can be read as a term
and every call in it is to a registered function that takes so many arguments; the result is the
listing of the term. -/
theorem checked_iff_read (registry : Registry) (source : String) (tokens : List Token)
    (htokens : tokenize registry source = .ok tokens) (hfilled : GroupsFilled none tokens)
    (rpn : List Token) :
    checked registry tokens = .ok rpn ↔
      ∃ term, readTerm registry tokens = some term ∧ term.Callable registry ∧
        term.listing = rpn := by
  have hsuccessive := successive_of_tokenize htokens
  constructor
  · intro h
    obtain ⟨phrase, term, hread, rfl, hfinished, -, hterm, rfl, hcallable, -⟩ :=
      exists_phrase_of_checked hsuccessive h
    rw [← List.append_nil phrase.spelling, phrase.groupsFilled_iff hfinished] at hfilled
    obtain ⟨other, hother⟩ := Option.isSome_iff_exists.mp hfilled.1
    obtain rfl : term = other :=
      Term.listing_injective (hterm.trans (phrase.listing_of_term? hother))
    exact ⟨term, by rw [readTerm, hread]; exact hother, hcallable, hterm⟩
  · rintro ⟨term, hread, hcallable, rfl⟩
    obtain ⟨phrase, hphrase, hterm⟩ := Option.bind_eq_some_iff.mp hread
    rcases ofTokens_readAll registry hsuccessive with ⟨hnone, -⟩ | ⟨other, hother, hlisted, -⟩
    · cases hphrase.symm.trans hnone
    · obtain rfl := Option.some.inj (hphrase.symm.trans hother)
      rw [phrase.listing_of_term? hterm] at hlisted
      exact checked_eq_ok_iff.mpr ⟨hlisted, validate_listing hcallable⟩

def signedPower : List Token :=
  [⟨.functionName, "max", 0⟩, ⟨.openParen, "(", 3⟩, ⟨.number, "2", 4⟩, ⟨.variableName, "x", 5⟩,
   ⟨.comma, ",", 6⟩, ⟨.unaryOperator, "-u", 8⟩, ⟨.variableName, "y", 9⟩, ⟨.operator, "^", 11⟩,
   ⟨.number, "2", 13⟩, ⟨.closeParen, ")", 14⟩]

def signedPowerListing : List Token :=
  [⟨.openParen, "(", 3⟩, ⟨.number, "2", 4⟩, ⟨.variableName, "x", 5⟩, ⟨.operator, "*", 5⟩,
   ⟨.variableName, "y", 9⟩, ⟨.unaryOperator, "-u", 8⟩, ⟨.number, "2", 13⟩, ⟨.operator, "^", 11⟩,
   ⟨.functionName, "max", 0⟩]

theorem signedPower_read :
    ∃ term, readTerm .standard signedPower = some term ∧ term.Callable .standard ∧
      term.listing = signedPowerListing :=
  (checked_iff_read .standard "max(2x, -y ^ 2)" signedPower (by decide +kernel) (by decide) _).mp
    (by decide +kernel)

end Rpn

end Formula
