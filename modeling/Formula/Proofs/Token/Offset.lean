import Formula.Proofs.Failure.Place
import Formula.Proofs.Token.Number
import Formula.Proofs.Token.Succession

/-! # Where tokens and failures of scanning are

Every token has the offset of its first character, and a failure of scanning the offset of a character
of the text.
-/
namespace Formula

namespace Lexeme

variable {registry : Registry} {previous : Option TokenKind} {offset : Nat} {c : Char}
  {cs : List Char} {lexeme : Lexeme} {failure : Failure}

mutual
theorem quotedPiece_offset (start quote span : Nat) (content : List Char) : (cs : List Char) →
    quotedPiece start quote span content cs = .ok lexeme → lexeme.token.offset = start
  | [], h => by simp [quotedPiece] at h
  | c :: cs, h => by
    unfold quotedPiece at h
    split at h
    · exact afterPiece_offset start (span + 1) (span + 1) content cs h
    · exact quotedPiece_offset start quote (span + 1) (c :: content) cs h
theorem afterPiece_offset (start closed span : Nat) (content : List Char) : (cs : List Char) →
    afterPiece start closed span content cs = .ok lexeme → lexeme.token.offset = start
  | [], h => by rw [← Except.ok.inj h]
  | c :: cs, h => by
    unfold afterPiece at h
    split at h
    · exact quotedPiece_offset start (start + span) (span + 1) content cs h
    split at h
    · exact afterPiece_offset start closed (span + 1) content cs h
    · rw [← Except.ok.inj h]
end

mutual
/-- A text that is not closed is at fault where its last piece opens. -/
theorem quotedPiece_error (start quote span : Nat) (content : List Char) : (cs : List Char) →
    quotedPiece start quote span content cs = .error failure →
      failure = .at .unterminatedString quote ∨
        failure.LiesIn (start + span) (start + span + cs.length)
  | [], h => .inl (Except.error.inj h).symm
  | c :: cs, h => by
    unfold quotedPiece at h
    rw [List.length_cons]
    split at h
    · exact .inr ((afterPiece_error start (span + 1) (span + 1) content cs h).mono (by omega) (by omega))
    · exact (quotedPiece_error start quote (span + 1) (c :: content) cs h).imp_right
        fun hlater => hlater.mono (by omega) (by omega)
theorem afterPiece_error (start closed span : Nat) (content : List Char) : (cs : List Char) →
    afterPiece start closed span content cs = .error failure →
      failure.LiesIn (start + span) (start + span + cs.length)
  | [], h => nomatch h
  | c :: cs, h => by
    unfold afterPiece at h
    rw [List.length_cons]
    split at h
    · rcases quotedPiece_error start (start + span) (span + 1) content cs h with rfl | hlater
      · exact ⟨_, start + span, rfl, by omega, by omega⟩
      · exact hlater.mono (by omega) (by omega)
    split at h
    · exact (afterPiece_error start closed (span + 1) content cs h).mono (by omega) (by omega)
    · cases h
end

theorem number_offset (h : number offset cs = .ok lexeme) : lexeme.token.offset = offset := by
  obtain ⟨kind, chars, -, hnumber⟩ := number_inversion h
  rw [hnumber offset] at h
  rw [← Except.ok.inj h, plain]

theorem number_error (h : number offset cs = .error failure) :
    ∃ cause, failure = .at cause offset := by
  have hhexadecimal : ∀ {zero mark cs}, hexadecimal offset zero mark cs = .error failure →
      ∃ cause, failure = .at cause offset := by
    intro zero mark cs h
    unfold hexadecimal at h
    dsimp only at h
    split at h
    · exact ⟨_, (Except.error.inj h).symm⟩
    · cases h
  unfold number at h
  split at h
  · exact hhexadecimal h
  · exact hhexadecimal h
  · unfold decimal at h
    cases hdigits : digitsPart offset cs with
    | ok digits => simp [hdigits, bind, Except.bind, pure, Except.pure] at h
    | error cause =>
      simp only [hdigits, bind, Except.bind, Except.error.injEq] at h
      subst h
      unfold digitsPart at hdigits
      dsimp only at hdigits
      split at hdigits
      · split at hdigits
        · exact ⟨_, (Except.error.inj hdigits).symm⟩
        · cases hdigits
      · cases hdigits

theorem operator_offset (h : operator registry previous offset c cs = .ok lexeme) :
    lexeme.token.offset = offset := by
  unfold operator at h
  dsimp only at h
  split at h
  · cases h
  split at h
  · rw [← Except.ok.inj h]
  · rw [← Except.ok.inj h]

theorem operator_error (h : operator registry previous offset c cs = .error failure) :
    failure = .at (.unexpectedCharacter c) offset := by
  unfold operator at h
  dsimp only at h
  split at h
  · exact (Except.error.inj h).symm
  split at h
  · cases h
  · cases h

theorem scan_offset (h : scan registry previous offset c cs = .ok lexeme) :
    lexeme.token.offset = offset := by
  unfold scan at h
  split at h
  · exact number_offset h
  split at h
  · exact quotedPiece_offset offset offset 1 [] cs h
  split at h
  · rw [← Except.ok.inj h, name]
    rfl
  split at h
  · rw [← Except.ok.inj h, plain]
  split at h
  · rw [← Except.ok.inj h, plain]
  split at h
  · rw [← Except.ok.inj h, plain]
  · exact operator_offset h

theorem scan_error (h : scan registry previous offset c cs = .error failure) :
    failure.LiesIn offset (offset + (c :: cs).length) := by
  rw [List.length_cons]
  unfold scan at h
  split at h
  · obtain ⟨cause, rfl⟩ := number_error h
    exact ⟨cause, offset, rfl, by omega, by omega⟩
  split at h
  · rcases quotedPiece_error offset offset 1 [] cs h with rfl | hlater
    · exact ⟨_, offset, rfl, by omega, by omega⟩
    · exact hlater.mono (by omega) (by omega)
  split at h
  · cases h
  split at h
  · cases h
  split at h
  · cases h
  split at h
  · cases h
  · rw [operator_error h]
    exact ⟨_, offset, rfl, by omega, by omega⟩

/-- Scanning on adds tokens, each at a character that was left, and stops at one of these. -/
theorem scanFrom_offsets {lexemes found : List Lexeme} {stop : Option Failure} {skip : Nat}
    (h : scanFrom registry found offset skip cs = (lexemes, stop)) :
    ∃ more : List Lexeme, lexemes = found.reverse ++ more ∧
      (∀ lexeme ∈ more, offset ≤ lexeme.token.offset ∧ lexeme.token.offset < offset + cs.length) ∧
        ∀ failure ∈ stop, failure.LiesIn offset (offset + cs.length) := by
  induction cs generalizing found offset skip with
  | nil =>
    cases h
    exact ⟨[], by simp, nofun, nofun⟩
  | cons c cs ih =>
    -- What holds of the characters after the first holds of all.
    have hlater : ∀ {found : List Lexeme} {skip : Nat},
        scanFrom registry found (offset + 1) skip cs = (lexemes, stop) →
        ∃ more : List Lexeme, lexemes = found.reverse ++ more ∧
          (∀ lexeme ∈ more, offset ≤ lexeme.token.offset ∧
            lexeme.token.offset < offset + (c :: cs).length) ∧
          ∀ failure ∈ stop, failure.LiesIn offset (offset + (c :: cs).length) := by
      intro found skip hrest
      obtain ⟨more, hmore, htokens, hstop⟩ := ih hrest
      rw [List.length_cons]
      refine ⟨more, hmore, fun lexeme hmem => ?_, fun failure hfailure => ?_⟩
      · obtain ⟨hfirst, hbound⟩ := htokens lexeme hmem
        exact ⟨by omega, by omega⟩
      · exact (hstop failure hfailure).mono (by omega) (by omega)
    cases skip with
    | succ skip => exact hlater h
    | zero =>
      unfold scanFrom at h
      dsimp only at h
      split at h
      · exact hlater h
      split at h
      next failure hscan =>
        cases h
        refine ⟨[], by simp, nofun, fun other hother => ?_⟩
        obtain rfl := Option.some.inj hother
        exact scan_error hscan
      next lexeme hscan =>
        obtain ⟨more, hmore, htokens, hstop⟩ := hlater h
        refine ⟨lexeme :: more, by simp [hmore], ?_, hstop⟩
        have hoffset := scan_offset hscan
        refine List.forall_mem_cons.mpr ⟨?_, htokens⟩
        rw [hoffset, List.length_cons]
        exact ⟨by omega, by omega⟩

end Lexeme

/-- Tokens of a text are at its characters. -/
theorem offset_lt_of_tokenize {registry : Registry} {source : String} {tokens : List Token}
    (h : tokenize registry source = .ok tokens) : ∀ token ∈ tokens, token.offset < source.length := by
  unfold tokenize scanText at h
  split at h
  next => cases h
  next lexemes hscan =>
    obtain ⟨more, hmore, htokens, -⟩ := Lexeme.scanFrom_offsets hscan
    intro token htoken
    rw [← Except.ok.inj h, hmore] at htoken
    obtain ⟨lexeme, hmem, rfl⟩ := List.mem_map.mp htoken
    have hbound := (htokens lexeme (by simpa using hmem)).2
    rw [String.length_toList] at hbound
    omega

theorem liesIn_of_tokenize {registry : Registry} {source : String} {failure : Failure}
    (h : tokenize registry source = .error failure) : failure.LiesIn 0 source.length := by
  unfold tokenize scanText at h
  split at h
  next lexemes stop hscan =>
    obtain ⟨more, -, -, hstop⟩ := Lexeme.scanFrom_offsets hscan
    rw [← Except.error.inj h]
    have hlies := hstop stop rfl
    rwa [Nat.zero_add, String.length_toList] at hlies
  next => cases h

/-- The first token of a text that starts with it is scanned there. -/
theorem scan_of_tokenize {registry : Registry} {source : String} {token : Token} {tokens : List Token}
    (h : tokenize registry source = .ok (token :: tokens)) (hstart : token.offset = 0) :
    ∃ c cs lexeme, source.toList = c :: cs ∧ Lexeme.scan registry none 0 c cs = .ok lexeme ∧
      lexeme.token = token := by
  unfold tokenize scanText at h
  split at h
  next => cases h
  next lexemes hscan =>
    have htokens : lexemes.map (·.token) = token :: tokens := Except.ok.inj h
    cases hcs : source.toList with
    | nil =>
      rw [hcs] at hscan
      cases hscan
      cases htokens
    | cons c cs =>
      rw [hcs] at hscan
      unfold Lexeme.scanFrom at hscan
      dsimp only at hscan
      split at hscan
      next =>
        -- After a blank every token has a later offset.
        obtain ⟨more, hmore, hoffsets, -⟩ := Lexeme.scanFrom_offsets hscan
        rw [hmore] at htokens
        obtain ⟨lexeme, hmem, rfl⟩ : ∃ lexeme ∈ more, lexeme.token = token := by
          rw [List.reverse_nil, List.nil_append] at htokens
          refine List.mem_map.mp ?_
          rw [htokens]
          exact List.mem_cons_self
        have hlater := (hoffsets lexeme hmem).1
        omega
      split at hscan
      next => cases hscan
      next lexeme hlexeme =>
        obtain ⟨more, hmore, -, -⟩ := Lexeme.scanFrom_offsets hscan
        rw [hmore] at htokens
        exact ⟨c, cs, lexeme, rfl, hlexeme, (List.cons.inj htokens).1⟩

end Formula
