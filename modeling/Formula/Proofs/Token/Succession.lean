import Formula.Proofs.Failure.Place
import Formula.Token.Scan

/-! # What may follow what

In the tokens of a text an operator is unary at the start and after an operator, an opening
parenthesis or a comma, and only there. A function's name is followed by the parenthesis that opens
its arguments.
-/
namespace Formula

/-- A token of this kind may stand after one of the previous kind, or at the start. -/
structure TokenKind.Follows (previous : Option TokenKind) (kind : TokenKind) : Prop where
  unary : kind.isOperator = true → (kind = .unaryOperator ↔ previous.all precedesUnary = true)
  opened : previous = some .functionName → kind = .openParen

def Successive (previous : Option TokenKind) : List Token → Prop
  | [] => previous ≠ some .functionName
  | token :: tokens => token.kind.Follows previous ∧ Successive (some token.kind) tokens

namespace Lexeme

variable {registry : Registry} {previous : Option TokenKind} {offset : Nat} {c : Char}
  {cs : List Char}
  {lexeme : Lexeme}

theorem decimal_kind (h : decimal offset cs = .ok lexeme) : lexeme.token.kind = .number := by
  obtain ⟨digits, -, hplain⟩ := exists_of_bind_eq_ok h
  rw [← Except.ok.inj hplain, plain]

theorem hexadecimal_kind {zero mark : Char} (h : hexadecimal offset zero mark cs = .ok lexeme) :
    lexeme.token.kind = .hexadecimal := by
  unfold hexadecimal at h
  dsimp only at h
  split at h
  · cases h
  · rw [← Except.ok.inj h, plain]

theorem number_kind (h : number offset cs = .ok lexeme) :
    lexeme.token.kind = .number ∨ lexeme.token.kind = .hexadecimal := by
  unfold number at h
  split at h
  · exact .inr (hexadecimal_kind h)
  · exact .inr (hexadecimal_kind h)
  · exact .inl (decimal_kind h)

mutual
theorem quotedPiece_kind (start quote span : Nat) (content : List Char) : (cs : List Char) →
    quotedPiece start quote span content cs = .ok lexeme → lexeme.token.kind = .text
  | [], h => by simp [quotedPiece] at h
  | c :: cs, h => by
    unfold quotedPiece at h
    split at h
    · exact afterPiece_kind start (span + 1) (span + 1) content cs h
    · exact quotedPiece_kind start quote (span + 1) (c :: content) cs h
theorem afterPiece_kind (start closed span : Nat) (content : List Char) : (cs : List Char) →
    afterPiece start closed span content cs = .ok lexeme → lexeme.token.kind = .text
  | [], h => by
    rw [← Except.ok.inj h]
  | c :: cs, h => by
    unfold afterPiece at h
    split at h
    · exact quotedPiece_kind start (start + span) (span + 1) content cs h
    · split at h
      · exact afterPiece_kind start closed (span + 1) content cs h
      · rw [← Except.ok.inj h]
end

/-- An operator is unary exactly where no operand stands before it. -/
theorem operator_kind (h : operator registry previous offset c cs = .ok lexeme) :
    (previous.all TokenKind.precedesUnary = true ∧ lexeme.token.kind = .unaryOperator) ∨
      (previous.all TokenKind.precedesUnary = false ∧ lexeme.token.kind = .operator) := by
  unfold operator at h
  dsimp only at h
  split at h
  · cases h
  · split at h
    next hunary =>
      rw [← Except.ok.inj h]
      exact .inl ⟨hunary, rfl⟩
    next hbinary =>
      rw [← Except.ok.inj h]
      exact .inr ⟨by simpa using hbinary, rfl⟩

theorem name_kind (offset : Nat) (cs : List Char) :
    (name offset cs).token.kind = .functionName ∨ (name offset cs).token.kind = .variableName := by
  unfold name
  dsimp only
  split
  · exact .inl rfl
  · exact .inr rfl

/-- After the name of a function a parenthesis opens. -/
theorem name_opened (h : (name offset cs).token.kind = .functionName) :
    ((cs.drop (name offset cs).span).dropWhile Text.isBlank).head? = some '(' := by
  unfold name plain at h ⊢
  dsimp only at h ⊢
  split at h
  next hcalled => simpa using hcalled
  next => cases h

theorem isNameChar_of_isNameStart (h : Registry.isNameStart c = true) :
    Registry.isNameChar c = true := by
  unfold Registry.isNameStart at h
  unfold Registry.isNameChar Text.isAlphanumeric
  simp only [Bool.or_eq_true] at h ⊢
  exact h.imp_left .inl

/-- A name covers the character that it starts with. -/
theorem name_span (offset : Nat) (cs : List Char) (h : Registry.isNameStart c = true) :
    1 ≤ (name offset (c :: cs)).span := by
  unfold name plain
  rw [List.takeWhile_cons_of_pos (isNameChar_of_isNameStart h)]
  simp

/-- A scanned token is a name, an operator, or of a kind that may stand anywhere. -/
theorem scan_cases (h : scan registry previous offset c cs = .ok lexeme) :
    (lexeme.token.kind.isOperator = false ∧ lexeme.token.kind ≠ .functionName) ∨
      (Registry.isNameStart c = true ∧ lexeme = name offset (c :: cs)) ∨
      operator registry previous offset c cs = .ok lexeme := by
  unfold scan at h
  split at h
  · obtain hkind | hkind := number_kind h <;> exact .inl (by simp [hkind, TokenKind.isOperator])
  split at h
  · exact .inl (by simp [quotedPiece_kind _ _ _ _ _ h, TokenKind.isOperator])
  split at h
  next hstart => exact .inr (.inl ⟨hstart, (Except.ok.inj h).symm⟩)
  split at h
  · exact .inl (by rw [← Except.ok.inj h]; exact ⟨rfl, by simp [plain]⟩)
  split at h
  · exact .inl (by rw [← Except.ok.inj h]; exact ⟨rfl, by simp [plain]⟩)
  split at h
  · exact .inl (by rw [← Except.ok.inj h]; exact ⟨rfl, by simp [plain]⟩)
  · exact .inr (.inr h)

theorem scan_unary (h : scan registry previous offset c cs = .ok lexeme)
    (hoperator : lexeme.token.kind.isOperator = true) :
    lexeme.token.kind = .unaryOperator ↔ previous.all TokenKind.precedesUnary = true := by
  rcases scan_cases h with ⟨hkind, -⟩ | ⟨-, rfl⟩ | h
  · simp [hkind] at hoperator
  · obtain hkind | hkind := name_kind offset (c :: cs) <;>
      simp [hkind, TokenKind.isOperator] at hoperator
  · rcases operator_kind h with ⟨hunary, hkind⟩ | ⟨hbinary, hkind⟩
    · simp [hunary, hkind]
    · simp [hbinary, hkind]

/-- After a scanned name of a function a parenthesis opens. -/
theorem scan_opened (h : scan registry previous offset c cs = .ok lexeme)
    (hname : lexeme.token.kind = .functionName) :
    ((cs.drop (lexeme.span - 1)).dropWhile Text.isBlank).head? = some '(' := by
  rcases scan_cases h with ⟨-, hkind⟩ | ⟨hstart, rfl⟩ | h
  · exact absurd hname hkind
  · have hopened := name_opened hname
    obtain ⟨span, hspan⟩ := Nat.exists_eq_add_of_le (name_span offset cs hstart)
    rw [hspan, Nat.add_comm, List.drop_succ_cons] at hopened
    rwa [hspan, Nat.add_sub_cancel_left]
  · obtain ⟨-, hkind⟩ | ⟨-, hkind⟩ := operator_kind h <;> simp [hkind] at hname

theorem scan_openParen (registry : Registry) (previous : Option TokenKind) (offset : Nat)
    (cs : List Char) :
    scan registry previous offset '(' cs = .ok (plain .openParen offset ['(']) := by
  have hdigit : startsNumber '(' cs = false := by
    simp [startsNumber, Text.isAsciiDigit]
  have hname : Registry.isNameStart '(' = false := by decide
  simp [scan, hdigit, hname]

/-- From a state in which a parenthesis opens if the latest token is a function's name, scanning
goes on with tokens that may follow each other. -/
theorem scanFrom_successive {lexemes found : List Lexeme} {offset skip : Nat} {cs : List Char}
    (hfound : found.head?.map (·.token.kind) = some .functionName →
      ((cs.drop skip).dropWhile Text.isBlank).head? = some '(')
    (h : scanFrom registry found offset skip cs = (lexemes, none)) :
    ∃ more, lexemes = found.reverse ++ more ∧
      Successive (found.head?.map (·.token.kind)) (more.map (·.token)) := by
  induction cs generalizing found offset skip with
  | nil =>
    simp only [scanFrom, Prod.mk.injEq, and_true] at h
    refine ⟨[], by simp [h], fun hname => ?_⟩
    simpa using hfound hname
  | cons c cs ih =>
    cases skip with
    | succ skip => exact ih (by simpa using hfound) h
    | zero =>
      unfold scanFrom at h
      dsimp only at h
      split at h
      next hblank =>
        refine ih (fun hname => ?_) h
        simpa [hblank] using hfound hname
      next hblank =>
        split at h
        next => simp at h
        next lexeme hscan =>
          obtain ⟨more, hmore, hsuccessive⟩ :=
            ih (fun hname => scan_opened hscan (by simpa using hname)) h
          refine ⟨lexeme :: more, by simpa using hmore, ⟨scan_unary hscan, fun hname => ?_⟩, by
            simpa using hsuccessive⟩
          have hparen := hfound hname
          obtain rfl : c = '(' := by simpa [hblank] using hparen
          rw [scan_openParen] at hscan
          rw [← Except.ok.inj hscan, plain]

end Lexeme

/-- The tokens of a text may follow each other. -/
theorem successive_of_tokenize {registry : Registry} {source : String} {tokens : List Token}
    (h : tokenize registry source = .ok tokens) : Successive none tokens := by
  unfold tokenize scanText at h
  split at h
  next => cases h
  next lexemes hscan =>
    obtain ⟨more, hmore, hsuccessive⟩ := Lexeme.scanFrom_successive (by simp) hscan
    rw [← Except.ok.inj h]
    simpa [hmore] using hsuccessive

end Formula
