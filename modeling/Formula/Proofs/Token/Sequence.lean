import Formula.Proofs.Token.Written

/-! # Written texts are scanned piece by piece

A text that is put together from written tokens and blanks is scanned into these tokens. Only their
places in the text differ. Pieces are scanned with all that follows them, so they can be joined.
-/
namespace Formula

def Token.unplaced (token : Token) : Token := { token with offset := 0 }

@[simp] theorem Token.unplaced_kind (token : Token) : token.unplaced.kind = token.kind := rfl

@[simp] theorem Token.unplaced_surface (token : Token) : token.unplaced.surface = token.surface := rfl

def kindAfter (previous : Option TokenKind) (tokens : List Token) : Option TokenKind :=
  tokens.foldl (fun _ token => some token.kind) previous

@[simp] theorem kindAfter_nil (previous : Option TokenKind) : kindAfter previous [] = previous := rfl

@[simp] theorem kindAfter_cons (previous : Option TokenKind) (token : Token) (tokens : List Token) :
    kindAfter previous (token :: tokens) = kindAfter (some token.kind) tokens := rfl

@[simp] theorem kindAfter_append (previous : Option TokenKind) (tokens more : List Token) :
    kindAfter previous (tokens ++ more) = kindAfter (kindAfter previous tokens) more :=
  List.foldl_append

theorem kindAfter_unplaced (previous : Option TokenKind) (tokens : List Token) :
    kindAfter previous (tokens.map Token.unplaced) = kindAfter previous tokens :=
  List.foldl_map

namespace Lexeme

theorem kindAfter_found (found lexemes : List Lexeme) :
    (lexemes.reverse ++ found).head?.map (·.token.kind) =
      kindAfter (found.head?.map (·.token.kind)) (lexemes.map (·.token)) := by
  induction lexemes generalizing found with
  | nil => rfl
  | cons lexeme lexemes ih =>
    have hmoved := ih (lexeme :: found)
    simpa using hmoved

/-- Before `rest`, the characters `cs` are scanned into tokens like `tokens`, wherever they stand. -/
def ScansTo (registry : Registry) (previous : Option TokenKind) (tokens : List Token)
    (cs rest : List Char) : Prop :=
  ∀ found offset, found.head?.map (·.token.kind) = previous →
    ∃ lexemes : List Lexeme,
      (lexemes.map (·.token)).map Token.unplaced = tokens.map Token.unplaced ∧
        scanFrom registry found offset 0 (cs ++ rest) =
          scanFrom registry (lexemes.reverse ++ found) (offset + cs.length) 0 rest

variable {registry : Registry} {previous : Option TokenKind} {tokens more : List Token}
  {cs ds rest : List Char}

theorem ScansTo.nil (registry : Registry) (previous : Option TokenKind) (rest : List Char) :
    ScansTo registry previous [] [] rest := fun _ _ _ => ⟨[], rfl, rfl⟩

theorem ScansTo.blank (registry : Registry) (previous : Option TokenKind) (rest : List Char) :
    ScansTo registry previous [] [' '] rest := by
  intro found offset _
  have hblank : Text.isBlank ' ' = true := by decide
  exact ⟨[], rfl, scanFrom_blank hblank rest⟩

theorem ScansTo.token {token : Token} (htoken : token.Scannable registry)
    (hunary : token.kind.isOperator = true →
      (token.kind = .unaryOperator ↔ previous.all TokenKind.precedesUnary = true))
    (hrest : token.kind.Parted rest) :
    ScansTo registry previous [token] token.written.toList rest := by
  intro found offset hprevious
  subst hprevious
  have hscans : Scans registry _ { token with offset } token.written.toList rest :=
    scans_written htoken hunary hrest
  exact ⟨[_], rfl, hscans.scanFrom_append⟩

theorem ScansTo.append (h : ScansTo registry previous tokens cs (ds ++ rest))
    (k : ScansTo registry (kindAfter previous tokens) more ds rest) :
    ScansTo registry previous (tokens ++ more) (cs ++ ds) rest := by
  intro found offset hprevious
  obtain ⟨lexemes, hlexemes, hscan⟩ := h found offset hprevious
  have hkind : (lexemes.reverse ++ found).head?.map (·.token.kind) = kindAfter previous tokens := by
    rw [kindAfter_found, hprevious, ← kindAfter_unplaced, hlexemes, kindAfter_unplaced]
  obtain ⟨others, hothers, hscan'⟩ := k (lexemes.reverse ++ found) (offset + cs.length) hkind
  refine ⟨lexemes ++ others, ?_, ?_⟩
  · simp only [List.map_append] at hlexemes hothers ⊢
    rw [hlexemes, hothers]
  · rw [List.append_assoc, hscan, hscan', List.reverse_append, List.append_assoc, List.length_append,
      Nat.add_assoc]

end Lexeme

/-- A text that scans to tokens is read as these tokens. -/
theorem tokenize_of_scansTo {registry : Registry} {source : String} {tokens : List Token}
    (h : Lexeme.ScansTo registry none tokens source.toList []) :
    ∃ found, tokenize registry source = .ok found ∧
      found.map Token.unplaced = tokens.map Token.unplaced := by
  obtain ⟨lexemes, hlexemes, hscan⟩ := h [] 0 rfl
  simp only [List.append_nil] at hscan
  refine ⟨lexemes.map (·.token), ?_, hlexemes⟩
  rw [tokenize, scanText, hscan, Lexeme.scanFrom, List.reverse_reverse]

end Formula
