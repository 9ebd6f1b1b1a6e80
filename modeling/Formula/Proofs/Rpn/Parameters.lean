import Formula.Proofs.Rpn.Reference

/-! # Calls receive the arguments that are written

Whatever parses, a call receives one parameter more than there are commas directly in its list, less
the empty groups that stand there: a pair of parentheses with nothing in it is skipped as if it were
not written. The calls of a text all receive what is written in them if and only if no group of the
text is empty.
-/
namespace Formula

/-- The number of commas outside of parentheses, where `depth` parentheses are open already. There
is none where the parentheses do not match. -/
def directCommas (depth : Nat) : List Token → Option Nat
  | [] => if depth = 0 then some 0 else none
  | token :: tokens =>
    match token.kind, depth with
    | .openParen, depth => directCommas (depth + 1) tokens
    | .closeParen, 0 => none
    | .closeParen, depth + 1 => directCommas depth tokens
    | .comma, 0 => (directCommas 0 tokens).map (· + 1)
    | _, depth => directCommas depth tokens

def argumentCount (inside : List Token) : Option Nat :=
  if inside.isEmpty then some 0 else (directCommas 0 inside).map (· + 1)

section directCommas

variable (depth : Nat) (tokens : List Token)

theorem directCommas_open (opening : TokenOf .openParen) :
    directCommas depth (opening.val :: tokens) = directCommas (depth + 1) tokens := by
  obtain ⟨⟨kind, surface, offset⟩, hkind⟩ := opening
  cases hkind
  rfl

theorem directCommas_close (closing : TokenOf .closeParen) :
    directCommas (depth + 1) (closing.val :: tokens) = directCommas depth tokens := by
  obtain ⟨⟨kind, surface, offset⟩, hkind⟩ := closing
  cases hkind
  rfl

theorem directCommas_comma (comma : TokenOf .comma) :
    directCommas 0 (comma.val :: tokens) = (directCommas 0 tokens).map (· + 1) := by
  obtain ⟨⟨kind, surface, offset⟩, hkind⟩ := comma
  cases hkind
  rfl

theorem directCommas_nested_comma (comma : TokenOf .comma) :
    directCommas (depth + 1) (comma.val :: tokens) = directCommas (depth + 1) tokens := by
  obtain ⟨⟨kind, surface, offset⟩, hkind⟩ := comma
  cases hkind
  rfl

theorem directCommas_cons {token : Token} (hopening : token.kind ≠ .openParen)
    (hclosing : token.kind ≠ .closeParen) (hcomma : token.kind ≠ .comma) :
    directCommas depth (token :: tokens) = directCommas depth tokens := by
  obtain ⟨kind, surface, offset⟩ := token
  cases kind with
  | openParen => exact absurd rfl hopening
  | closeParen => exact absurd rfl hclosing
  | comma => exact absurd rfl hcomma
  | _ => rfl

end directCommas

mutual
/-- All commas of a phrase are in its calls. -/
theorem Phrase.directCommas_spelling (depth : Nat) (rest : List Token) : (phrase : Phrase) →
    directCommas depth (phrase.spelling ++ rest) = directCommas depth rest
  | .missing => rfl
  | .leaf leaf => directCommas_cons _ _ (leaf.kind_ne rfl) (leaf.kind_ne rfl) (leaf.kind_ne rfl)
  | .hollow opening closing => by
    rw [Phrase.spelling, List.cons_append, List.singleton_append, directCommas_open,
      directCommas_close]
  | .group opening inner closing => by
    rw [Phrase.spelling, List.cons_append, List.append_assoc, directCommas_open,
      inner.directCommas_spelling, List.singleton_append, directCommas_close]
  | .prefixed sign operand => by
    rw [Phrase.spelling, List.cons_append, directCommas_cons, operand.directCommas_spelling] <;>
      simp [sign.property]
  | .infixed sign left right => by
    have hsign : directCommas depth (sign.spelling ++ (right.spelling ++ rest)) =
        directCommas depth (right.spelling ++ rest) := by
      cases sign with
      | written token =>
        apply directCommas_cons <;> simp [token.property]
      | implied offset => rfl
    rw [Phrase.spelling, List.append_assoc, List.append_assoc, left.directCommas_spelling, hsign,
      right.directCommas_spelling]
  | .bareCall name opening closing => by
    rw [Phrase.spelling, List.cons_append, List.cons_append, List.singleton_append,
      directCommas_cons, directCommas_open, directCommas_close] <;> simp [name.property]
  | .call name opening arguments closing => by
    rw [Phrase.spelling, List.cons_append, List.cons_append, List.append_assoc, directCommas_cons,
      directCommas_open, arguments.directCommas_nested, List.singleton_append,
      directCommas_close] <;>
      simp [name.property]
theorem Arguments.directCommas_nested (depth : Nat) (rest : List Token) : (arguments : Arguments) →
    directCommas (depth + 1) (arguments.spelling ++ rest) = directCommas (depth + 1) rest
  | .last phrase => phrase.directCommas_spelling (depth + 1) rest
  | .more phrase comma arguments => by
    rw [Arguments.spelling, List.append_assoc, phrase.directCommas_spelling, List.cons_append,
      directCommas_nested_comma, arguments.directCommas_nested]
end

/-- There is one argument more than there are commas between them. -/
theorem Arguments.directCommas_spelling : (arguments : Arguments) →
    (directCommas 0 arguments.spelling).map (· + 1) = some arguments.count
  | .last phrase => by
    have hphrase := phrase.directCommas_spelling 0 []
    rw [List.append_nil] at hphrase
    rw [Arguments.spelling, hphrase]
    rfl
  | .more phrase comma rest => by
    rw [Arguments.spelling, phrase.directCommas_spelling, directCommas_comma,
      rest.directCommas_spelling]
    rfl

namespace WrittenCall

def inside (written : WrittenCall) : List Token := written.arguments.elim [] Arguments.spelling

def spelling (written : WrittenCall) : List Token :=
  written.name.val :: written.opening.val :: (written.inside ++ [written.closing.val])

/-- The call is written in the text, with as many arguments as its commas say. -/
structure StandsIn (written : WrittenCall) (tokens : List Token) : Prop where
  within : written.spelling <:+: tokens
  count : argumentCount written.inside = some written.count

theorem StandsIn.mono {written : WrittenCall} {tokens more : List Token}
    (h : written.StandsIn tokens) (hmore : tokens <:+: more) : written.StandsIn more :=
  ⟨h.within.trans hmore, h.count⟩

end WrittenCall

mutual
theorem Phrase.standsIn_of_mem_calls : (phrase : Phrase) → phrase.Finished →
    ∀ written ∈ phrase.calls, written.StandsIn phrase.spelling
  | .missing, h => h.elim
  | .leaf _, _ | .hollow .., _ => by simp [Phrase.calls]
  | .group opening inner closing, h => fun written hwritten =>
    (inner.standsIn_of_mem_calls h written hwritten).mono
      (List.infix_append [opening.val] _ [closing.val])
  | .prefixed sign operand, h => fun written hwritten =>
    (operand.standsIn_of_mem_calls h written hwritten).mono (List.infix_cons (List.infix_refl _))
  | .infixed sign left right, h => by
    rw [Phrase.calls, List.forall_mem_append]
    constructor
    · intro written hwritten
      refine (left.standsIn_of_mem_calls h.1 written hwritten).mono ?_
      exact ⟨[], sign.spelling ++ right.spelling, by simp [Phrase.spelling]⟩
    · intro written hwritten
      refine (right.standsIn_of_mem_calls h.2 written hwritten).mono ?_
      exact ⟨left.spelling ++ sign.spelling, [], by simp [Phrase.spelling]⟩
  | .bareCall name opening closing, _ => by
    rw [Phrase.calls, List.forall_mem_singleton]
    exact ⟨List.infix_refl _, rfl⟩
  | .call name opening arguments closing, h => by
    rw [Phrase.calls, List.forall_mem_append, List.forall_mem_singleton]
    refine ⟨fun written hwritten => (arguments.standsIn_of_mem_calls h written hwritten).mono ?_,
      List.infix_refl _, ?_⟩
    · exact ⟨[name.val, opening.val], [closing.val], by simp [Phrase.spelling]⟩
    · obtain ⟨first, rest, harguments, -⟩ := arguments.exists_head h
      have hcount := arguments.directCommas_spelling
      simpa [argumentCount, WrittenCall.inside, WrittenCall.count, harguments] using hcount
theorem Arguments.standsIn_of_mem_calls : (arguments : Arguments) → arguments.Finished →
    ∀ written ∈ arguments.calls, written.StandsIn arguments.spelling
  | .last phrase, h => phrase.standsIn_of_mem_calls h
  | .more phrase comma rest, h => by
    rw [Arguments.calls, List.forall_mem_append]
    constructor
    · intro written hwritten
      exact (phrase.standsIn_of_mem_calls h.1 written hwritten).mono ⟨[], _, rfl⟩
    · intro written hwritten
      refine (rest.standsIn_of_mem_calls h.2 written hwritten).mono ?_
      exact ⟨phrase.spelling ++ [comma.val], [], by simp [Arguments.spelling]⟩
end

namespace Rpn

/-- What parses is made of the calls that are written in it, and no operand is missing at its end. Each call
receives as many parameters as are written, less the gaps among them; all receive as many as are written if and
only if no group of the text is empty, and then the parameters are the terms of the written arguments. -/
theorem checked_calls (registry : Registry) (source : String) (tokens : List Token)
    (htokens : tokenize registry source = .ok tokens) (rpn : List Token)
    (h : checked registry tokens = .ok rpn) :
    ∃ (phrase : Phrase) (term : Term), phrase.spelling = tokens ∧ phrase.Finished ∧ term.listing = rpn ∧
      (phrase.calls.map (·.name.val)).Perm (tokens.filter (·.kind == .functionName)) ∧
      term.calls.map (·.name.val) = rpn.filter (·.kind == .functionName) ∧
      (∀ written ∈ phrase.calls, written.StandsIn tokens) ∧
      List.Forall₂ WrittenCall.Makes phrase.calls term.calls ∧
      (List.Forall₂ (fun written call => call.arguments.length = written.count)
        phrase.calls term.calls ↔ GroupsFilled none tokens) ∧
      (GroupsFilled none tokens →
        List.Forall₂ (fun written call => written.terms? = some call.arguments)
          phrase.calls term.calls) := by
  obtain ⟨phrase, term, -, rfl, hfinished, hgaps, rfl, -, -, hmakes⟩ :=
    exists_phrase_of_checked (successive_of_tokenize htokens) h
  have hfilled : GroupsFilled none phrase.spelling ↔
      ∀ written ∈ phrase.calls, written.gaps = 0 := by
    rw [← List.append_nil phrase.spelling, phrase.groupsFilled_iff hfinished,
      phrase.isSome_term?_iff]
    exact ⟨fun h => h.1.2, fun h => ⟨⟨hgaps, h⟩, trivial⟩⟩
  refine ⟨phrase, term, rfl, hfinished, rfl, phrase.map_name_calls, term.map_name_calls,
    phrase.standsIn_of_mem_calls hfinished, hmakes, ?_, fun h => ?_⟩
  · rw [hfilled]
    exact WrittenCall.forall₂_count_iff hmakes
  · have hterms := phrase.isSome_terms?_of_mem_calls (hfilled.mp h)
    refine ((List.forall₂_and_left _ _).mpr ⟨hterms, hmakes⟩).imp fun written call hboth => ?_
    obtain ⟨terms, hterms⟩ := Option.isSome_iff_exists.mp hboth.1
    rw [hterms, hboth.2.terms terms hterms]

theorem signedPower_calls :
    ∃ (phrase : Phrase) (term : Term), phrase.spelling = signedPower ∧
      List.Forall₂ (fun written call => call.arguments.length = written.count)
        phrase.calls term.calls ∧
      List.Forall₂ (fun written call => written.terms? = some call.arguments)
        phrase.calls term.calls := by
  obtain ⟨phrase, term, hspelling, -, -, -, -, -, -, hcount, hterms⟩ :=
    checked_calls .standard "max(2x, -y ^ 2)" signedPower (by decide +kernel) signedPowerListing
      (by decide +kernel)
  have hfilled : GroupsFilled none signedPower := by decide
  exact ⟨phrase, term, hspelling, hcount.mpr hfilled, hterms hfilled⟩

def skippedGroup : List Token :=
  [⟨.functionName, "abs", 0⟩, ⟨.openParen, "(", 3⟩, ⟨.number, "1", 4⟩, ⟨.comma, ",", 5⟩,
   ⟨.openParen, "(", 7⟩, ⟨.closeParen, ")", 8⟩, ⟨.closeParen, ")", 9⟩]

/-- Two arguments are written, but the call receives one. -/
theorem skippedGroup_parsed :
    tokenize .standard "abs(1, ())" = .ok skippedGroup ∧
      argumentCount (skippedGroup.drop 2).dropLast = some 2 ∧
      ∃ term : Term, checked .standard skippedGroup = .ok term.listing ∧
        term.calls.map (·.arguments.length) = [1] :=
  ⟨by decide +kernel, by decide +kernel,
    .call ⟨⟨.openParen, "(", 3⟩, rfl⟩ ⟨⟨.functionName, "abs", 0⟩, rfl⟩
      [.atom ⟨⟨.number, "1", 4⟩, rfl⟩],
    by decide +kernel, rfl⟩

/-- In `list(1, () + 2)` the sum takes its left operand from before the comma. -/
example : checked .standard
    [⟨.functionName, "list", 0⟩, ⟨.openParen, "(", 4⟩, ⟨.number, "1", 5⟩, ⟨.comma, ",", 6⟩,
     ⟨.openParen, "(", 8⟩, ⟨.closeParen, ")", 9⟩, ⟨.operator, "+", 11⟩, ⟨.number, "2", 13⟩,
     ⟨.closeParen, ")", 14⟩] =
    .ok [⟨.openParen, "(", 4⟩, ⟨.number, "1", 5⟩, ⟨.number, "2", 13⟩, ⟨.operator, "+", 11⟩,
      ⟨.functionName, "list", 0⟩] := by decide +kernel

end Rpn

end Formula
