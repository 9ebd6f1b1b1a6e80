import Formula.Proofs.Token.Layout
import Formula.Proofs.Token.Sequence

/-! # Tokens are read again with blanks between them

The tokens of a text, written with a blank between any two of them, are read again. A blank parts every
token from the next one, and the next one begins with the same character as it did in the text, so
names are called and texts go on as before.
-/
namespace Formula

def respelling (tokens : List Token) : String := " ".intercalate (tokens.map Token.written)

theorem toList_respelling (token next : Token) (tokens : List Token) :
    (respelling (token :: next :: tokens)).toList =
      token.written.toList ++ ' ' :: (respelling (next :: tokens)).toList := by
  simp [respelling, String.intercalate_cons_cons]

variable {registry : Registry} {token : Token} {tokens : List Token} {chars rest : List Char}

structure TokenKind.Begins (next : Option TokenKind) (cs : List Char) : Prop where
  paren : (cs.dropWhile Text.isBlank).head? = some '(' ↔ next = some .openParen
  quote : (cs.dropWhile Text.isBlank).head? = some '\'' ↔ next = some .text

structure TokenKind.Precedes (kind : TokenKind) (next : Option TokenKind) : Prop where
  called : kind = .functionName ∨ kind = .variableName →
    (next = some .openParen ↔ kind = .functionName)
  unquoted : kind = .text → next ≠ some .text

def Spaced (registry : Registry) : List Token → Prop
  | [] => True
  | token :: tokens =>
    token.Scannable registry ∧ token.kind.Precedes (tokens.head?.map (·.kind)) ∧ Spaced registry tokens

/-- A parenthesis and a quotation mark begin one kind of tokens each. -/
theorem Token.Scannable.written_head (h : token.Scannable registry) :
    ∃ c more, token.written.toList = c :: more ∧ Text.isBlank c = false ∧
      (c = '(' ↔ token.kind = .openParen) ∧ (c = '\'' ↔ token.kind = .text) := by
  obtain ⟨kind, surface, offset⟩ := token
  have hmarks : ∀ {symbol : String}, Lexeme.IsOperator registry symbol.toList →
      ∃ c more, symbol.toList = c :: more ∧ Text.isBlank c = false ∧ c ≠ '(' ∧ c ≠ '\'' := by
    intro symbol hrun
    obtain ⟨c, more, hcs⟩ := List.exists_cons_of_ne_nil hrun.nonempty
    have hc := Lexeme.isSymbolChar_iff.mp (hrun.symbols c (by simp [hcs]))
    exact ⟨c, more, hcs, hc.2.2.1, hc.2.2.2.1, hc.2.2.2.2.2.2⟩
  cases kind with
  | number | hexadecimal =>
    obtain ⟨c, cs, hsurface, hstart, -⟩ := h
    refine ⟨c, cs, hsurface, Lexeme.not_blank_of_startsNumber hstart, ?_, ?_⟩
    · simp only [reduceCtorEq, iff_false]
      rintro rfl
      simp [Lexeme.startsNumber, Text.isAsciiDigit] at hstart
    · simp only [reduceCtorEq, iff_false]
      rintro rfl
      simp [Lexeme.startsNumber, Text.isAsciiDigit] at hstart
  | text => exact ⟨'\'', surface.toList ++ ['\''], by simp [written], by decide, by simp, by simp⟩
  | variableName | functionName =>
    have hname : Registry.isName surface = true := h
    unfold Registry.isName at hname
    cases hcs : surface.toList with
    | nil => simp [hcs] at hname
    | cons c cs =>
      have hstart : Registry.isNameStart c = true := by
        simp only [hcs, Bool.and_eq_true] at hname
        exact hname.1
      refine ⟨c, cs, hcs, Lexeme.not_blank_of_isNameStart hstart, ?_, ?_⟩
      · simp only [reduceCtorEq, iff_false]
        rintro rfl
        revert hstart
        decide
      · simp only [reduceCtorEq, iff_false]
        rintro rfl
        revert hstart
        decide
  | operator =>
    obtain ⟨c, more, hcs, hblank, hparen, hquote⟩ := hmarks h
    exact ⟨c, more, hcs, hblank, by simpa using hparen, by simpa using hquote⟩
  | unaryOperator =>
    obtain ⟨symbol, hsurface, hrun⟩ := h
    obtain ⟨c, more, hcs, hblank, hparen, hquote⟩ := hmarks hrun
    have hwritten : Token.written ⟨.unaryOperator, surface, offset⟩ = symbol :=
      Token.unmarked_of_surface hsurface
    rw [hwritten]
    exact ⟨c, more, hcs, hblank, by simpa using hparen, by simpa using hquote⟩
  | openParen =>
    obtain rfl : surface = "(" := h
    exact ⟨'(', [], by simp [written], by decide, by simp, by simp⟩
  | closeParen =>
    obtain rfl : surface = ")" := h
    exact ⟨')', [], by simp [written], by decide, by simp, by simp⟩
  | comma =>
    obtain rfl : surface = "," := h
    exact ⟨',', [], by simp [written], by decide, by simp, by simp⟩

/-- Characters that begin like the written token. -/
theorem Token.Scannable.begins (h : token.Scannable registry)
    (hhead : chars.head? = token.written.toList.head?) (rest : List Char) :
    TokenKind.Begins (some token.kind) (chars ++ rest) := by
  obtain ⟨c, more, hwritten, hblank, hparen, hquote⟩ := h.written_head
  obtain ⟨others, rfl⟩ : ∃ others, chars = c :: others := by
    rw [hwritten, List.head?_cons] at hhead
    exact List.head?_eq_some_iff.mp hhead
  have hdrop : (c :: others ++ rest).dropWhile Text.isBlank = c :: others ++ rest := by
    rw [List.cons_append, List.dropWhile_cons_of_neg (by simp [hblank])]
  constructor
  · rw [hdrop]
    simpa using hparen
  · rw [hdrop]
    simpa using hquote

/-- A token is spelled with the character first that it is written with. -/
theorem Lexeme.Covers.head_eq (h : Lexeme.Covers registry token chars rest) :
    chars.head? = token.written.toList.head? := by
  obtain ⟨kind, surface, offset⟩ := token
  have hspells := h.spells
  cases kind with
  | text =>
    obtain ⟨pieces, hquoted, -⟩ := hspells
    obtain ⟨more, rfl⟩ := hquoted.head_eq
    simp [Token.written]
  | unaryOperator =>
    have hsurface : surface = String.ofList chars ++ unaryMark := by
      rw [← String.toList_inj, String.toList_append, String.toList_ofList]
      exact hspells
    have hwritten : Token.written ⟨.unaryOperator, surface, offset⟩ = String.ofList chars :=
      Token.unmarked_of_surface hsurface
    rw [hwritten, String.toList_ofList]
  | number | hexadecimal | variableName | functionName | operator | openParen | closeParen | comma =>
    have hsurface : surface.toList = chars := hspells
    rw [← hsurface]
    rfl

namespace Lexeme.Laid

variable {offset : Nat} {lexemes : List Lexeme} {cs : List Char}

theorem begins (h : Laid registry offset lexemes cs) :
    TokenKind.Begins (lexemes.head?.map (·.token.kind)) cs := by
  induction h with
  | done => exact ⟨by simp, by simp⟩
  | blank hblank _ ih =>
    obtain ⟨hparen, hquote⟩ := ih
    constructor
    · rwa [List.dropWhile_cons_of_pos hblank]
    · rwa [List.dropWhile_cons_of_pos hblank]
  | lexeme _ _ hcovers _ _ => exact hcovers.scannable.begins hcovers.head_eq _

theorem spaced (h : Laid registry offset lexemes cs) : Spaced registry (lexemes.map (·.token)) := by
  induction h with
  | done => trivial
  | blank _ _ ih => exact ih
  | @lexeme _ _ others _ _ _ _ hcovers h ih =>
    refine ⟨hcovers.scannable, ?_, ih⟩
    have hnext : (others.map (·.token)).head?.map (·.kind) = others.head?.map (·.token.kind) := by
      cases others <;> rfl
    rw [hnext]
    exact
      { called := fun hname => h.begins.paren.symm.trans (hcovers.called hname)
        unquoted := fun htext hquote => hcovers.unquoted htext (h.begins.quote.mpr hquote) }

end Lexeme.Laid

namespace Spaced

theorem begins (h : Spaced registry tokens) :
    TokenKind.Begins (tokens.head?.map (·.kind)) (respelling tokens).toList := by
  match tokens, h with
  | [], _ => exact ⟨by simp [respelling], by simp [respelling]⟩
  | [token], h =>
    have hbegins := h.1.begins rfl []
    simpa [respelling] using hbegins
  | token :: next :: tokens, h =>
    rw [toList_respelling]
    exact h.1.begins rfl _

/-- Behind a blank stands what begins like the next token. -/
theorem parted {kind : TokenKind} (hkind : kind.Precedes (tokens.head?.map (·.kind)))
    (h : Spaced registry tokens) : kind.Parted (' ' :: (respelling tokens).toList) := by
  have hblank : Text.isBlank ' ' = true := by decide
  have hseparator : Lexeme.isSeparator ' ' = true := by decide
  refine ⟨fun _ => Lexeme.separated_cons hseparator _, fun hname => ?_, fun htext hquote => ?_⟩
  · rw [List.dropWhile_cons_of_pos hblank]
    exact h.begins.paren.trans (hkind.called hname)
  · rw [List.dropWhile_cons_of_pos hblank] at hquote
    exact hkind.unquoted htext (h.begins.quote.mp hquote)

theorem scansTo {previous : Option TokenKind} (h : Spaced registry tokens)
    (hsuccessive : Successive previous tokens) :
    Lexeme.ScansTo registry previous tokens (respelling tokens).toList [] := by
  induction tokens generalizing previous with
  | nil => exact .nil registry previous []
  | cons token tokens ih =>
    obtain ⟨htoken, hprecedes, hspaced⟩ := h
    obtain ⟨hfollows, hlater⟩ := hsuccessive
    cases tokens with
    | nil =>
      have hparted : token.kind.Parted [] := by
        refine ⟨fun _ => Lexeme.separated_nil, fun hname => ?_, fun _ => by simp⟩
        have hcalled := hprecedes.called hname
        simpa using hcalled
      have hscans := Lexeme.ScansTo.token htoken hfollows.unary hparted
      simpa [respelling] using hscans
    | cons next tokens =>
      have hfirst : Lexeme.ScansTo registry previous [token] token.written.toList
          (' ' :: (respelling (next :: tokens)).toList ++ []) := by
        rw [List.append_nil]
        exact .token htoken hfollows.unary (hspaced.parted hprecedes)
      have hblank := Lexeme.ScansTo.blank registry (kindAfter previous [token])
        ((respelling (next :: tokens)).toList ++ [])
      rw [toList_respelling]
      exact hfirst.append (hblank.append (ih hspaced hlater))

end Spaced

/-- The tokens of a text are read again where they are written with blanks between them. -/
theorem tokenize_respelling {source : String} (h : tokenize registry source = .ok tokens) :
    ∃ found, tokenize registry (respelling tokens) = .ok found ∧
      found.map Token.unplaced = tokens.map Token.unplaced := by
  obtain ⟨lexemes, rfl, hlaid⟩ := laid_of_tokenize h
  exact tokenize_of_scansTo (hlaid.spaced.scansTo (successive_of_tokenize h))

/-- `-0x1f 'a' 'b'` is read as `- 0x1f 'ab'` is. -/
theorem adjacentTexts_respelled :
    ∃ found, tokenize .standard (respelling
        [⟨.unaryOperator, "-u", 0⟩, ⟨.hexadecimal, "0x1f", 1⟩, ⟨.text, "ab", 6⟩]) = .ok found ∧
      found.map Token.unplaced =
        [⟨.unaryOperator, "-u", 0⟩, ⟨.hexadecimal, "0x1f", 0⟩, ⟨.text, "ab", 0⟩] := by
  have htokens : tokenize .standard "-0x1f 'a' 'b'" =
      .ok [⟨.unaryOperator, "-u", 0⟩, ⟨.hexadecimal, "0x1f", 1⟩, ⟨.text, "ab", 6⟩] := by decide +kernel
  exact tokenize_respelling htokens

end Formula
