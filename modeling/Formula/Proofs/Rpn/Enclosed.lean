import Formula.Proofs.Rpn.Parenthesised
import Formula.Proofs.Rpn.Reference

/-! # A text in parentheses is listed as by itself

What the yard does with a whole text it also does above an open parenthesis: no step reaches below it.
When the parenthesis closes, the operators that waited for the end of the text are listed in the same
order. So a text in parentheses is an operand with the listing of the text.
-/
namespace Formula

/-- A phrase in which no operand is missing ends with its last token. -/
theorem Phrase.ending_spelling : (phrase : Phrase) → phrase.Finished →
    phrase.spelling.getLast?.map (·.kind) = some phrase.ending
  | .leaf _, _ => rfl
  | .hollow _ closing, _ => congrArg some closing.property
  | .group opening inner closing, _ => by
    rw [spelling, List.getLast?_cons, List.getLast?_concat]
    exact congrArg some closing.property
  | .prefixed sign operand, h => by
    have hoperand := operand.ending_spelling h
    obtain ⟨last, hlast, hkind⟩ := Option.map_eq_some_iff.mp hoperand
    simp [spelling, ending, List.getLast?_cons, hlast, hkind]
  | .infixed sign left right, h => by
    have hright := right.ending_spelling h.2
    obtain ⟨last, hlast, hkind⟩ := Option.map_eq_some_iff.mp hright
    simp [spelling, ending, List.getLast?_append, hlast, hkind]
  | .bareCall _ _ closing, _ => congrArg some closing.property
  | .call name opening arguments closing, _ => by
    rw [spelling, List.getLast?_cons, List.getLast?_cons, List.getLast?_concat]
    exact congrArg some closing.property
  | .missing, h => h.elim

namespace Rpn

def Yard.above (yard : Yard) (opening : TokenOf .openParen) (below : Yard) : Yard :=
  ⟨yard.output ++ below.output, yard.waiting ++ opening.val :: below.waiting⟩

variable {registry : Registry} {previous : Option Token} {token : Token} {yard next : Yard}
  {output waiting : List Token} (opening : TokenOf .openParen) (below : Yard)

/-- The parenthesis waits, so nothing below it is released. -/
theorem releaseFor_above {op : Operator} (h : releaseFor registry op output waiting = .ok next) :
    releaseFor registry op (output ++ below.output) (waiting ++ opening.val :: below.waiting) =
      .ok (next.above opening below) := by
  induction waiting generalizing output with
  | nil =>
    obtain rfl := Except.ok.inj h
    exact releaseFor_encloses (.group opening below.waiting) (by simp [Operator.Ends]) _
  | cons top rest ih =>
    rw [releaseFor] at h
    rw [List.cons_append, releaseFor]
    by_cases hkind : top.kind.isOperator = true
    · rw [if_pos hkind] at h ⊢
      cases hop : registry.operator? top.surface with
      | none => simp [hop] at h
      | some waitingOperator =>
        simp only [hop] at h ⊢
        by_cases hyields : yieldsTo op waitingOperator = true
        · rw [if_pos hyields] at h ⊢
          exact ih h
        · rw [if_neg hyields] at h ⊢
          obtain rfl := Except.ok.inj h
          rfl
    · rw [if_neg hkind] at h ⊢
      obtain rfl := Except.ok.inj h
      rfl

theorem releaseGroup_above (output waiting : List Token) :
    releaseGroup (output ++ below.output) (waiting ++ opening.val :: below.waiting) =
      (releaseGroup output waiting).above opening below := by
  induction waiting generalizing output with
  | nil => exact releaseGroup_opening opening (output ++ below.output) below.waiting
  | cons top rest ih =>
    rw [List.cons_append, releaseGroup, releaseGroup]
    split
    · rfl
    · exact ih (top :: output)

/-- Right after an open parenthesis a text starts anew. -/
theorem follows_above {p : TokenKind → Bool} (hopen : p .openParen = true) (previous : Option Token) :
    follows (some (previous.getD opening.val)) p = follows previous p := by
  cases previous with
  | none => simp [follows, opening.property, hopen]
  | some previous => rfl

theorem joinOperands_above (h : joinOperands registry previous token yard = .ok next) :
    joinOperands registry (some (previous.getD opening.val)) token (yard.above opening below) =
      .ok (next.above opening below) := by
  cases previous with
  | none =>
    obtain rfl := Except.ok.inj h
    exact joinOperands_some (by simp [opening.property, TokenKind.endsOperand]) _
  | some left =>
    unfold joinOperands at h ⊢
    simp only [Option.getD_some] at h ⊢
    split at h
    next hjoins =>
      rw [if_pos hjoins]
      split at h
      next => cases h
      next product hproduct =>
        split at h
        next hmultiplies =>
          rw [if_pos hmultiplies]
          obtain ⟨released, hreleased, hnext⟩ := exists_of_bind_eq_ok h
          obtain rfl := Except.ok.inj hnext
          rw [Yard.above, releaseFor_above opening below hreleased]
          rfl
        next => cases h
    next hjoins =>
      rw [if_neg hjoins]
      obtain rfl := Except.ok.inj h
      rfl

theorem addComma_above (h : addComma previous token yard = .ok next) :
    addComma (some (previous.getD opening.val)) token (yard.above opening below) =
      .ok (next.above opening below) := by
  unfold addComma at h ⊢
  rw [follows_above opening rfl]
  split at h
  next => cases h
  next hfollows =>
    rw [if_neg hfollows, Yard.above, releaseGroup_above]
    dsimp only at h ⊢
    split at h
    next hwaiting =>
      obtain rfl := Except.ok.inj h
      simp only [Yard.above, hwaiting, List.cons_append]
    next => cases h

theorem addOperator_above (h : addOperator registry previous token yard = .ok next) :
    addOperator registry (some (previous.getD opening.val)) token (yard.above opening below) =
      .ok (next.above opening below) := by
  unfold addOperator at h ⊢
  rw [follows_above opening rfl]
  split at h
  next => cases h
  next hfollows =>
    rw [if_neg hfollows]
    split at h
    next => cases h
    next op hop =>
      split at h
      next => cases h
      next hunary =>
        rw [if_neg hunary]
        obtain ⟨released, hreleased, hnext⟩ := exists_of_bind_eq_ok h
        obtain rfl := Except.ok.inj hnext
        rw [Yard.above, releaseFor_above opening below hreleased]
        rfl

theorem addUnary_above (h : addUnary registry previous token yard = .ok next) :
    addUnary registry (some (previous.getD opening.val)) token (yard.above opening below) =
      .ok (next.above opening below) := by
  unfold addUnary at h ⊢
  rw [follows_above opening rfl]
  split at h
  next hfollows =>
    rw [if_pos hfollows]
    split at h
    next hunary =>
      rw [if_pos hunary]
      obtain rfl := Except.ok.inj h
      rfl
    next => cases h
  next => cases h

theorem addOpenParen_above (previous : Option Token) (token : Token) (yard : Yard) :
    addOpenParen (some (previous.getD opening.val)) token (yard.above opening below) =
      (addOpenParen previous token yard).above opening below := by
  have hname : ((some (previous.getD opening.val)).any fun t => t.kind == .functionName) =
      previous.any fun t => t.kind == .functionName := by
    cases previous with
    | none => simp [opening.property]
    | some previous => rfl
  unfold addOpenParen
  rw [hname]
  split <;> rfl

theorem addCloseParen_above (h : addCloseParen previous token yard = .ok next) :
    addCloseParen (some (previous.getD opening.val)) token (yard.above opening below) =
      .ok (next.above opening below) := by
  have hgroup := releaseGroup_above opening below yard.output yard.waiting
  unfold addCloseParen at h ⊢
  simp only [Yard.above, hgroup] at h ⊢
  generalize releaseGroup yard.output yard.waiting = released at h
  obtain ⟨output, waiting⟩ := released
  have hcloses : ((previous.getD opening.val).kind.isOperator ||
      (previous.getD opening.val).kind == .comma) = false := by
    cases previous with
    | none => simp [opening.property, TokenKind.isOperator]
    | some before =>
      by_cases hbefore : (before.kind.isOperator || before.kind == .comma) = true
      · simp [hbefore] at h
      · simpa using hbefore
  rw [if_neg (by simp [hcloses])]
  cases previous
  case' some before =>
    dsimp only at h
    rw [if_neg (by simpa using hcloses)] at h
  -- The parenthesis closes what waits, and the open one below is no function.
  all_goals
    rcases waiting with _ | ⟨first, _ | ⟨top, rest⟩⟩
    · cases h
    · obtain rfl := Except.ok.inj h
      simp [opening.property]
    · dsimp only [List.cons_append] at h ⊢
      by_cases hname : top.kind = .functionName
      · rw [if_pos hname] at h ⊢
        obtain rfl := Except.ok.inj h
        rfl
      · rw [if_neg hname] at h ⊢
        obtain rfl := Except.ok.inj h
        rfl

/-- A step that goes well does so above an open parenthesis, and leaves what is below. -/
theorem step_above (h : step registry previous token yard = .ok next) :
    step registry (some (previous.getD opening.val)) token (yard.above opening below) =
      .ok (next.above opening below) := by
  obtain ⟨joined, hjoined, h⟩ := exists_of_bind_eq_ok h
  unfold step
  rw [joinOperands_above opening below hjoined]
  obtain ⟨kind, surface, offset⟩ := token
  cases kind with
  | number | hexadecimal | text | variableName | functionName =>
    obtain rfl := Except.ok.inj h
    rfl
  | comma => exact addComma_above opening below h
  | operator => exact addOperator_above opening below h
  | unaryOperator => exact addUnary_above opening below h
  | openParen =>
    obtain rfl := Except.ok.inj h
    exact congrArg Except.ok (addOpenParen_above opening below previous _ joined)
  | closeParen => exact addCloseParen_above opening below h

/-- The steps of a whole text lead to the yard from which its listing is finished. -/
theorem steps_above {tokens rpn : List Token} (h : steps registry previous yard tokens = .ok rpn)
    (rest : List Token) :
    ∃ last : Yard, finish last.output last.waiting = .ok rpn ∧
      steps registry (some (previous.getD opening.val)) (yard.above opening below) (tokens ++ rest) =
        steps registry (some ((tokens.getLast?.or previous).getD opening.val))
          (last.above opening below) rest := by
  induction tokens generalizing previous yard with
  | nil => exact ⟨yard, h, rfl⟩
  | cons token tokens ih =>
    obtain ⟨next, hnext, h⟩ := exists_of_bind_eq_ok h
    obtain ⟨last, hlast, hsteps⟩ := ih h
    refine ⟨last, hlast, ?_⟩
    rw [List.cons_append, steps_cons, step_above opening below hnext]
    have hlatest : (token :: tokens).getLast?.or previous = tokens.getLast?.or (some token) := by
      rw [List.getLast?_cons]
      cases tokens.getLast? <;> rfl
    rw [hlatest]
    exact hsteps

/-- What is listed at the end of a text is released by a parenthesis that closes after it. -/
theorem releaseGroup_of_finish {rpn : List Token} (h : finish output waiting = .ok rpn) :
    releaseGroup output waiting = ⟨rpn.reverse, []⟩ := by
  induction waiting generalizing output with
  | nil =>
    obtain rfl := Except.ok.inj h
    rw [releaseGroup, List.reverse_reverse]
  | cons top rest ih =>
    rw [finish] at h
    split at h
    next => cases h
    next hparen =>
      rw [releaseGroup, if_neg fun hopen => hparen (.inl hopen)]
      exact ih h

/-- A closing parenthesis first lists what waits in its group. -/
theorem step_close_released {last : Token} (hlast : last.kind.endsOperand = true)
    (closing : TokenOf .closeParen) {opening : TokenOf .openParen} {listed below : List Token}
    (h : releaseGroup output waiting = ⟨listed, opening.val :: below⟩) :
    step registry (some last) closing.val ⟨output, waiting⟩ =
      step registry (some last) closing.val ⟨listed, opening.val :: below⟩ := by
  obtain ⟨⟨kind, surface, offset⟩, hkind⟩ := closing
  cases hkind
  have hcloses : (last.kind.isOperator || last.kind == .comma) = false := by
    generalize last.kind = kind at hlast
    cases kind <;> first | rfl | cases hlast
  simp only [step, joinOperands, TokenKind.startsOperand, Bool.false_and, Bool.false_eq_true,
    ↓reduceIte, addCloseParen, hcloses, h, releaseGroup_opening, bind, Except.bind]

open Term in
/-- A text in parentheses is an operand with the listing of the text. -/
theorem operandListed_enclosed {tokens rpn : List Token} (hsuccessive : Successive none tokens)
    (h : checked registry tokens = .ok rpn) :
    OperandListed registry (Term.opening.val :: (tokens ++ [closing.val])) rpn := by
  obtain ⟨phrase, -, -, rfl, hfinished, -⟩ := exists_phrase_of_checked hsuccessive h
  obtain ⟨hlisted, -⟩ := checked_eq_ok_iff.mp h
  obtain ⟨last, hlast, hkind⟩ := Option.map_eq_some_iff.mp (phrase.ending_spelling hfinished)
  have hends : last.kind.endsOperand = true := hkind ▸ phrase.ending_endsOperand hfinished
  intro previous enclosing output waiting hexpecting hwaiting rest
  obtain ⟨final, hfinal, hsteps⟩ :=
    steps_above Term.opening ⟨output, waiting⟩ hlisted (closing.val :: rest)
  have hreleased := releaseGroup_above Term.opening ⟨output, waiting⟩ final.output final.waiting
  rw [releaseGroup_of_finish hfinal] at hreleased
  refine ⟨closing.val, rfl, ?_⟩
  have hopened : steps registry (some Term.opening.val) ⟨output, Term.opening.val :: waiting⟩
      (phrase.spelling ++ closing.val :: rest) = _ := hsteps
  rw [List.cons_append, List.append_assoc, List.singleton_append, steps_cons, step_group hexpecting,
    Except.bind, hopened, hlast, Option.some_or, Option.getD_some, steps_cons, Yard.above,
    step_close_released hends closing hreleased]
  exact congrArg (·.bind fun yard => steps registry (some closing.val) yard rest)
    (step_close_group (.inl hends) closing Term.opening hwaiting)

end Rpn

end Formula
