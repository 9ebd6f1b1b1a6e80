import Formula.Proofs.Rpn.RoundTrip

/-! # A text is scanned inside another as by itself

Where an operator would be unary and an operand may end behind it, a text is scanned into the tokens that
it has by itself. Only their places differ.
-/
namespace Formula

namespace Lexeme

def movedTo (lexeme : Lexeme) (place : Nat) : Lexeme := { lexeme with token.offset := place }

@[simp] theorem movedTo_kind (lexeme : Lexeme) (place : Nat) :
    (lexeme.movedTo place).token.kind = lexeme.token.kind := rfl

@[simp] theorem movedTo_span (lexeme : Lexeme) (place : Nat) :
    (lexeme.movedTo place).span = lexeme.span := rfl

@[simp] theorem movedTo_unplaced (lexeme : Lexeme) (place : Nat) :
    (lexeme.movedTo place).token.unplaced = lexeme.token.unplaced := rfl

variable {registry : Registry} {previous other : Option TokenKind} {offset place : Nat} {c : Char}
  {cs rest : List Char} {lexeme : Lexeme}

theorem startsNumber_append (h : Separated rest) (c : Char) (cs : List Char) :
    startsNumber c (cs ++ rest) = startsNumber c cs := by
  cases cs with
  | cons d cs => rfl
  | nil =>
    cases rest with
    | nil => rfl
    | cons d rest => simp [startsNumber, h.digit d rfl]

mutual
/-- A quoted piece goes on as before where no other piece follows the text. -/
theorem quotedPiece_moved (hrest : (rest.dropWhile Text.isBlank).head? ≠ some '\'')
    (start place quote position span : Nat) (content : List Char) : (cs : List Char) →
    quotedPiece start quote span content cs = .ok lexeme →
      quotedPiece place position span content (cs ++ rest) = .ok (lexeme.movedTo place) ∧
        lexeme.span ≤ span + cs.length
  | [], h => nomatch h
  | c :: cs, h => by
    unfold quotedPiece at h
    rw [List.cons_append, quotedPiece, List.length_cons]
    by_cases hquote : c = '\''
    · rw [if_pos hquote] at h ⊢
      have hafter := afterPiece_moved hrest start place (span + 1) (span + 1) content (Nat.le_refl _) cs h
      exact ⟨hafter.1, by omega⟩
    · rw [if_neg hquote] at h ⊢
      have hpiece := quotedPiece_moved hrest start place quote position (span + 1) (c :: content) cs h
      exact ⟨hpiece.1, by omega⟩
theorem afterPiece_moved (hrest : (rest.dropWhile Text.isBlank).head? ≠ some '\'')
    (start place closed span : Nat) (content : List Char) (hclosed : closed ≤ span) : (cs : List Char) →
    afterPiece start closed span content cs = .ok lexeme →
      afterPiece place closed span content (cs ++ rest) = .ok (lexeme.movedTo place) ∧
        lexeme.span ≤ span + cs.length
  | [], h => by
    obtain rfl := Except.ok.inj h
    exact ⟨afterPiece_closed hrest place closed span content, hclosed⟩
  | c :: cs, h => by
    unfold afterPiece at h
    rw [List.cons_append, afterPiece, List.length_cons]
    by_cases hquote : c = '\''
    · rw [if_pos hquote] at h ⊢
      have hpiece :=
        quotedPiece_moved hrest start place (start + span) (place + span) (span + 1) content cs h
      exact ⟨hpiece.1, by omega⟩
    · rw [if_neg hquote] at h ⊢
      by_cases hblank : Text.isBlank c = true
      · rw [if_pos hblank] at h ⊢
        have hafter := afterPiece_moved hrest start place closed (span + 1) content (by omega) cs h
        exact ⟨hafter.1, by omega⟩
      · rw [if_neg hblank] at h ⊢
        obtain rfl := Except.ok.inj h
        exact ⟨rfl, Nat.le_trans hclosed (Nat.le_add_right _ _)⟩
end

theorem number_moved (hrest : Separated rest) (h : number offset (c :: cs) = .ok lexeme) :
    number place (c :: (cs ++ rest)) = .ok (lexeme.movedTo place) ∧ lexeme.span ≤ cs.length + 1 := by
  obtain ⟨kind, chars, hchars, hnumber⟩ := number_inversion h
  obtain rfl := Except.ok.inj ((hnumber offset).symm.trans h)
  refine ⟨?_, hchars.length_le⟩
  rw [← List.cons_append, number_append hrest, hnumber place]
  rfl

/-- Whether a name is called is seen before the operand ends. -/
theorem name_moved (hrest : OperandEnds rest) (offset place : Nat) (cs : List Char) :
    name place (cs ++ rest) = (name offset cs).movedTo place ∧ (name offset cs).span ≤ cs.length := by
  have hcharacters := takeWhile_append hrest.separated.nameChar cs
  have hlength := (List.takeWhile_prefix (p := Registry.isNameChar) (l := cs)).length_le
  have hcalled : ((cs.drop (cs.takeWhile Registry.isNameChar).length ++ rest).dropWhile
      Text.isBlank).head? = some '(' ↔
      ((cs.drop (cs.takeWhile Registry.isNameChar).length).dropWhile Text.isBlank).head? = some '(' := by
    generalize cs.drop (cs.takeWhile Registry.isNameChar).length = more
    induction more with
    | nil => simpa using fun hopen => (hrest.next '(' hopen).1
    | cons d more ih =>
      by_cases hblank : Text.isBlank d = true
      · simpa [hblank] using ih
      · simp [hblank]
  refine ⟨?_, hlength⟩
  simp only [name, plain, movedTo, hcharacters, List.drop_append_of_le_length hlength, beq_iff_eq,
    hcalled]

theorem operator_moved (hrest : Separated rest)
    (hprevious : other.all TokenKind.precedesUnary = previous.all TokenKind.precedesUnary)
    (h : operator registry previous offset c cs = .ok lexeme) :
    operator registry other place c (cs ++ rest) = .ok (lexeme.movedTo place) ∧
      lexeme.span ≤ cs.length + 1 := by
  have hrun := takeWhile_append hrest.symbolChar (c :: cs)
  rw [List.cons_append] at hrun
  have hlength : ∀ run, (operatorChars registry run).length ≤ run.length := by
    intro run
    unfold operatorChars
    split
    · exact List.length_take_le' _ _
    · exact Nat.le_refl _
  have hbound := (List.takeWhile_prefix (p := Registry.isSymbolChar) (l := c :: cs)).length_le
  have hspan := hlength ((c :: cs).takeWhile Registry.isSymbolChar)
  rw [List.length_cons] at hbound
  unfold operator at h ⊢
  dsimp only at h ⊢
  rw [hrun, hprevious]
  split at h
  next => cases h
  next hempty =>
    rw [if_neg hempty]
    split at h
    next hunary =>
      rw [if_pos hunary]
      obtain rfl := Except.ok.inj h
      exact ⟨rfl, by dsimp only; omega⟩
    next hbinary =>
      rw [if_neg hbinary]
      obtain rfl := Except.ok.inj h
      exact ⟨rfl, by dsimp only; omega⟩

/-- The token at the start of a text is there whatever follows, and ends within the text. -/
theorem scan_moved (hrest : OperandEnds rest)
    (hprevious : other.all TokenKind.precedesUnary = previous.all TokenKind.precedesUnary)
    (h : scan registry previous offset c cs = .ok lexeme) (place : Nat) :
    scan registry other place c (cs ++ rest) = .ok (lexeme.movedTo place) ∧
      lexeme.span ≤ cs.length + 1 := by
  have hquote : (rest.dropWhile Text.isBlank).head? ≠ some '\'' := fun hquote =>
    absurd rfl (hrest.next '\'' hquote).2
  unfold scan at h ⊢
  rw [startsNumber_append hrest.separated]
  split at h
  next hstart =>
    rw [if_pos hstart]
    exact number_moved hrest.separated h
  next hstart =>
  rw [if_neg hstart]
  split at h
  next hopen =>
    rw [if_pos hopen]
    have hpiece := quotedPiece_moved hquote offset place offset place 1 [] cs h
    exact ⟨hpiece.1, by omega⟩
  next hopen =>
  rw [if_neg hopen]
  split at h
  next hname =>
    rw [if_pos hname]
    obtain rfl := Except.ok.inj h
    have hmoved := name_moved hrest offset place (c :: cs)
    rw [List.cons_append] at hmoved
    exact ⟨congrArg _ hmoved.1, hmoved.2⟩
  next hname =>
  rw [if_neg hname]
  have hmark : ∀ {kind}, (.ok (plain kind offset [c]) : Except Failure Lexeme) = .ok lexeme →
      (.ok (plain kind place [c]) : Except Failure Lexeme) = .ok (lexeme.movedTo place) ∧
        lexeme.span ≤ cs.length + 1 := by
    intro kind h
    obtain rfl := Except.ok.inj h
    exact ⟨rfl, Nat.le_add_left 1 cs.length⟩
  split at h
  next hopening => rw [if_pos hopening]; exact hmark h
  next hopening =>
  rw [if_neg hopening]
  split at h
  next hclosing => rw [if_pos hclosing]; exact hmark h
  next hclosing =>
  rw [if_neg hclosing]
  split at h
  next hcomma => rw [if_pos hcomma]; exact hmark h
  next hcomma =>
  rw [if_neg hcomma]
  exact operator_moved hrest.separated hprevious h

/-- Scanning goes on alike behind lexemes whose latest allows the same operators, until the text ends. -/
theorem scanFrom_moved (hrest : OperandEnds rest) {found lexemes seen : List Lexeme} {skip : Nat}
    (hskip : skip ≤ cs.length)
    (hkinds : (seen.head?.map (·.token.kind)).all TokenKind.precedesUnary =
      (found.head?.map (·.token.kind)).all TokenKind.precedesUnary)
    (h : scanFrom registry found offset skip cs = (lexemes, none)) (place : Nat) :
    ∃ added more : List Lexeme, lexemes = found.reverse ++ added ∧
      (more.map (·.token)).map Token.unplaced = (added.map (·.token)).map Token.unplaced ∧
      scanFrom registry seen place skip (cs ++ rest) =
        scanFrom registry (more.reverse ++ seen) (place + cs.length) 0 rest := by
  induction cs generalizing found seen offset place skip with
  | nil =>
    obtain rfl : skip = 0 := by simpa using hskip
    simp only [scanFrom, Prod.mk.injEq, and_true] at h
    exact ⟨[], [], by simp [h], rfl, rfl⟩
  | cons c cs ih =>
    have hplace : place + 1 + cs.length = place + (c :: cs).length := by
      rw [List.length_cons]
      omega
    rw [← hplace, List.cons_append]
    cases skip with
    | succ skip => exact ih (Nat.le_of_succ_le_succ hskip) hkinds h (place + 1)
    | zero =>
      unfold scanFrom at h
      rw [scanFrom]
      dsimp only at h ⊢
      by_cases hblank : Text.isBlank c = true
      · rw [if_pos hblank] at h ⊢
        exact ih (Nat.zero_le _) hkinds h (place + 1)
      · rw [if_neg hblank] at h ⊢
        split at h
        next => simp at h
        next lexeme hscan =>
          obtain ⟨hmoved, hspan⟩ := scan_moved hrest hkinds hscan place
          rw [hmoved]
          dsimp only
          have hlatest : ((lexeme.movedTo place :: seen).head?.map (·.token.kind)).all
              TokenKind.precedesUnary =
                ((lexeme :: found).head?.map (·.token.kind)).all TokenKind.precedesUnary := rfl
          obtain ⟨added, more, hadded, hmore, hscanned⟩ := ih (by omega) hlatest h (place + 1)
          refine ⟨lexeme :: added, lexeme.movedTo place :: more, by simpa using hadded, ?_, ?_⟩
          · simpa using hmore
          · simpa using hscanned

/-- Where an operator would be unary, a text is scanned as by itself. -/
theorem scansTo_of_tokenize {source : String} {tokens : List Token}
    (h : tokenize registry source = .ok tokens) (hprevious : previous.all TokenKind.precedesUnary = true)
    (hrest : OperandEnds rest) : ScansTo registry previous tokens source.toList rest := by
  intro seen place hseen
  unfold tokenize scanText at h
  split at h
  next => cases h
  next lexemes hscan =>
    obtain rfl := Except.ok.inj h
    have hkinds : (seen.head?.map (·.token.kind)).all TokenKind.precedesUnary =
        (([] : List Lexeme).head?.map (·.token.kind)).all TokenKind.precedesUnary := by
      rw [hseen, hprevious]
      rfl
    obtain ⟨added, more, rfl, hmore, hscanned⟩ :=
      scanFrom_moved hrest (Nat.zero_le _) hkinds hscan place
    exact ⟨more, hmore, hscanned⟩

end Lexeme

end Formula
