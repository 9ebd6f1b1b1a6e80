import Formula.Proofs.Token.Number
import Formula.Proofs.Token.Succession

/-! # Tokens are found again where they are written

A token that is written before a separator is scanned back, wherever it stands and whatever comes
after. The characters behind it are part of the statements, so that they also say where a token ends.
-/
namespace Formula

namespace Lexeme

variable {registry : Registry} {previous : Option TokenKind} {offset : Nat} {c : Char}
  {cs rest : List Char} {found : List Lexeme}

/-- A written number is a number before any separator. -/
theorem scan_number {kind : TokenKind} (hstart : startsNumber c cs = true)
    (hnumber : number offset (c :: cs) = .ok (plain kind offset (c :: cs))) (h : Separated rest) :
    scan registry previous offset c (cs ++ rest) = .ok (plain kind offset (c :: cs)) := by
  rw [scan, if_pos (startsNumber_append_of hstart rest), ← List.cons_append, number_append h]
  exact hnumber

theorem quotedPiece_append (hcs : '\'' ∉ cs) (start quote span : Nat) (content : List Char) :
    quotedPiece start quote span content (cs ++ '\'' :: rest) =
      afterPiece start (span + cs.length + 1) (span + cs.length + 1) (cs.reverse ++ content) rest := by
  induction cs generalizing span content with
  | nil => rfl
  | cons c cs ih =>
    simp only [List.mem_cons, not_or] at hcs
    have hc : c ≠ '\'' := fun heq => hcs.1 heq.symm
    have hspan : span + 1 + cs.length + 1 = span + (c :: cs).length + 1 := by
      rw [List.length_cons]
      omega
    rw [List.cons_append, quotedPiece, if_neg hc, ih hcs.2, hspan]
    simp

/-- A text ends where no other piece follows. -/
theorem afterPiece_closed (h : (rest.dropWhile Text.isBlank).head? ≠ some '\'')
    (start closed span : Nat) (content : List Char) :
    afterPiece start closed span content rest =
      .ok ⟨⟨.text, String.ofList content.reverse, start⟩, closed⟩ := by
  induction rest generalizing span with
  | nil => simp [afterPiece]
  | cons c rest ih =>
    have hquote : Text.isBlank '\'' = false := by decide
    have hc : c ≠ '\'' := by
      rintro rfl
      simp [hquote] at h
    by_cases hblank : Text.isBlank c = true
    · rw [List.dropWhile_cons_of_pos hblank] at h
      rw [afterPiece, if_neg hc, if_pos hblank, ih h]
    · rw [afterPiece, if_neg hc, if_neg hblank]

theorem scan_text (hcs : '\'' ∉ cs) (h : (rest.dropWhile Text.isBlank).head? ≠ some '\'') :
    scan registry previous offset '\'' (cs ++ '\'' :: rest) =
      .ok ⟨⟨.text, String.ofList cs, offset⟩, cs.length + 2⟩ := by
  have hstart : startsNumber '\'' (cs ++ '\'' :: rest) = false := by
    simp [startsNumber, Text.isAsciiDigit]
  have hspan : 1 + cs.length + 1 = cs.length + 2 := by omega
  rw [scan, if_neg (by simp [hstart]), if_pos rfl, quotedPiece_append hcs, afterPiece_closed h, hspan]
  simp

/-- A written name is one name before any separator, and is called if a parenthesis comes next. -/
theorem scan_name (hstart : Registry.isNameStart c = true) (hcs : cs.all Registry.isNameChar = true)
    (h : Separated rest) :
    scan registry previous offset c (cs ++ rest) =
      .ok (plain (if (rest.dropWhile Text.isBlank).head? == some '(' then .functionName
        else .variableName) offset (c :: cs)) := by
  have hquote : c ≠ '\'' := by
    rintro rfl
    revert hstart
    decide +kernel
  have hall : ∀ d ∈ c :: cs, Registry.isNameChar d = true := by
    intro d hd
    rcases List.mem_cons.mp hd with rfl | hd
    · exact isNameChar_of_isNameStart hstart
    · exact List.all_eq_true.mp hcs d hd
  have hcharacters := takeWhile_exact hall h.nameChar
  rw [scan, if_neg (by simp [not_startsNumber_of_isNameStart hstart]), if_neg hquote, if_pos hstart,
    ← List.cons_append, name, hcharacters, List.drop_left]

structure IsOperator (registry : Registry) (run : List Char) : Prop where
  nonempty : run ≠ []
  symbols : ∀ c ∈ run, Registry.isSymbolChar c = true
  whole : operatorChars registry run = run

theorem scan_operator (hrun : IsOperator registry (c :: cs)) (h : Separated rest)
    (previous : Option TokenKind) (offset : Nat) :
    scan registry previous offset c (cs ++ rest) =
      .ok ⟨if previous.all TokenKind.precedesUnary = true
          then ⟨.unaryOperator, String.ofList (c :: cs) ++ unaryMark, offset⟩
          else ⟨.operator, String.ofList (c :: cs), offset⟩, (c :: cs).length⟩ := by
  obtain ⟨halphanumeric, hunderscore, -, hopen, hclose, hcomma, hquote⟩ :=
    isSymbolChar_iff.mp (hrun.symbols c List.mem_cons_self)
  have hdigit : ∀ d ∈ (cs ++ rest).head?, Text.isAsciiDigit d = false := by
    intro d hd
    rw [Bool.eq_false_iff]
    intro hdigit
    cases cs with
    | nil => simp [h.digit d hd] at hdigit
    | cons e cs =>
      obtain rfl : e = d := by simpa using hd
      have hsymbol := isSymbolChar_iff.mp (hrun.symbols e (by simp))
      simp [Text.isAlphanumeric_of_isAsciiDigit hdigit] at hsymbol
  have hname : Registry.isNameStart c = false := by
    rw [Bool.eq_false_iff]
    intro hname
    rcases isAlphanumeric_of_isNameStart hname with hc | hc
    · simp [halphanumeric] at hc
    · exact hunderscore hc
  have hnumber := not_startsNumber_of_isSymbolChar (hrun.symbols c List.mem_cons_self) hdigit
  have hcharacters := takeWhile_exact hrun.symbols h.symbolChar
  rw [scan, if_neg (by simp [hnumber]), if_neg hquote, if_neg (by simp [hname]), if_neg hopen,
    if_neg hclose, if_neg hcomma, operator, ← List.cons_append, hcharacters]
  dsimp only
  rw [hrun.whole, List.isEmpty_cons, if_neg Bool.false_ne_true]
  split <;> rfl

theorem scan_closeParen (registry : Registry) (previous : Option TokenKind) (offset : Nat)
    (cs : List Char) :
    scan registry previous offset ')' cs = .ok (plain .closeParen offset [')']) := by
  have hdigit : startsNumber ')' cs = false := by simp [startsNumber, Text.isAsciiDigit]
  have hname : Registry.isNameStart ')' = false := by decide
  simp [scan, hdigit, hname]

theorem scan_comma (registry : Registry) (previous : Option TokenKind) (offset : Nat)
    (cs : List Char) : scan registry previous offset ',' cs = .ok (plain .comma offset [',']) := by
  have hdigit : startsNumber ',' cs = false := by simp [startsNumber, Text.isAsciiDigit]
  have hname : Registry.isNameStart ',' = false := by decide
  simp [scan, hdigit, hname]

end Lexeme

namespace Token

def written (token : Token) : String :=
  match token.kind with
  | .text => "'" ++ token.surface ++ "'"
  | .unaryOperator => token.unmarked
  | _ => token.surface

/-- The token has the surface of what scanning finds where the token is written. -/
def Scannable (registry : Registry) (token : Token) : Prop :=
  match token.kind with
  | .number | .hexadecimal =>
    ∃ c cs, token.surface.toList = c :: cs ∧ Lexeme.startsNumber c cs = true ∧
      ∀ offset, Lexeme.number offset (c :: cs) = .ok (Lexeme.plain token.kind offset (c :: cs))
  | .text => '\'' ∉ token.surface.toList
  | .variableName | .functionName => Registry.isName token.surface = true
  | .operator => Lexeme.IsOperator registry token.surface.toList
  | .unaryOperator =>
    ∃ symbol, token.surface = symbol ++ unaryMark ∧ Lexeme.IsOperator registry symbol.toList
  | .openParen => token.surface = "("
  | .closeParen => token.surface = ")"
  | .comma => token.surface = ","

theorem unmarked_of_surface {token : Token} {symbol : String}
    (h : token.surface = symbol ++ unaryMark) : token.unmarked = symbol := by
  have hmark : unaryMark.toList = ['u'] := by decide
  simp [unmarked, h, hmark]

end Token

structure TokenKind.Parted (kind : TokenKind) (rest : List Char) : Prop where
  separated : kind ≠ .openParen → Lexeme.Separated rest
  called : kind = .functionName ∨ kind = .variableName →
    ((rest.dropWhile Text.isBlank).head? = some '(' ↔ kind = .functionName)
  unquoted : kind = .text → (rest.dropWhile Text.isBlank).head? ≠ some '\''

namespace Lexeme

variable {registry : Registry} {previous : Option TokenKind} {found : List Lexeme} {offset : Nat}
  {surface : String} {c : Char} {cs rest : List Char}

theorem scanFrom_skip (found : List Lexeme) (offset : Nat) (cs rest : List Char) :
    scanFrom registry found offset cs.length (cs ++ rest) =
      scanFrom registry found (offset + cs.length) 0 rest := by
  induction cs generalizing offset with
  | nil => rfl
  | cons c cs ih =>
    have hoffset : offset + 1 + cs.length = offset + (c :: cs).length := by
      rw [List.length_cons]
      omega
    rw [List.cons_append, List.length_cons, scanFrom, ih, hoffset, List.length_cons]

theorem scanFrom_blank (h : Text.isBlank c = true) (rest : List Char) :
    scanFrom registry found offset 0 (c :: rest) = scanFrom registry found (offset + 1) 0 rest := by
  rw [scanFrom]
  simp [h]

/-- Where `cs` is written before `rest`, the token is scanned at its first character, and covers it. -/
def Scans (registry : Registry) (previous : Option TokenKind) (token : Token) (cs rest : List Char) :
    Prop :=
  ∃ c more, cs = c :: more ∧ Text.isBlank c = false ∧
    scan registry previous token.offset c (more ++ rest) = .ok ⟨token, cs.length⟩

theorem scans_number {kind : TokenKind} (hsurface : surface.toList = c :: cs)
    (hstart : startsNumber c cs = true)
    (hnumber : ∀ offset, number offset (c :: cs) = .ok (plain kind offset (c :: cs)))
    (hrest : Separated rest) :
    Scans registry previous ⟨kind, surface, offset⟩ surface.toList rest := by
  refine ⟨c, cs, hsurface, not_blank_of_startsNumber hstart, ?_⟩
  rw [scan_number hstart (hnumber offset) hrest, plain, ← hsurface, String.ofList_toList]

theorem scans_text (hsurface : '\'' ∉ surface.toList)
    (hrest : (rest.dropWhile Text.isBlank).head? ≠ some '\'') :
    Scans registry previous ⟨.text, surface, offset⟩ ("'" ++ surface ++ "'").toList rest := by
  refine ⟨'\'', surface.toList ++ ['\''], by simp, by decide, ?_⟩
  rw [List.append_assoc]
  refine (scan_text hsurface hrest).trans ?_
  simp

theorem scans_name {kind : TokenKind} (hsurface : Registry.isName surface = true)
    (hkind : kind = .functionName ∨ kind = .variableName)
    (hcalled : (rest.dropWhile Text.isBlank).head? = some '(' ↔ kind = .functionName)
    (hrest : Separated rest) :
    Scans registry previous ⟨kind, surface, offset⟩ surface.toList rest := by
  unfold Registry.isName at hsurface
  cases hcs : surface.toList with
  | nil => simp [hcs] at hsurface
  | cons c cs =>
    simp only [hcs, Bool.and_eq_true, List.all_cons] at hsurface
    obtain ⟨hstart, -, hall⟩ := hsurface
    refine ⟨c, cs, rfl, not_blank_of_isNameStart hstart, ?_⟩
    have hname : (if (rest.dropWhile Text.isBlank).head? == some '(' then TokenKind.functionName
        else .variableName) = kind := by
      rcases hkind with rfl | rfl
      · simp [hcalled]
      · simp [hcalled]
    rw [scan_name hstart hall hrest, hname, plain, ← hcs, String.ofList_toList]

theorem scans_operator (hrun : IsOperator registry surface.toList) (hrest : Separated rest)
    (previous : Option TokenKind) (offset : Nat) :
    Scans registry previous
      (if previous.all TokenKind.precedesUnary = true then ⟨.unaryOperator, surface ++ unaryMark, offset⟩
        else ⟨.operator, surface, offset⟩) surface.toList rest := by
  cases hcs : surface.toList with
  | nil => exact absurd hcs hrun.nonempty
  | cons c cs =>
    rw [hcs] at hrun
    have hblank : Text.isBlank c = false :=
      (isSymbolChar_iff.mp (hrun.symbols c List.mem_cons_self)).2.2.1
    have hsurface : String.ofList (c :: cs) = surface := by rw [← hcs, String.ofList_toList]
    refine ⟨c, cs, rfl, hblank, ?_⟩
    have hscan := scan_operator hrun hrest previous offset
    rw [hsurface] at hscan
    by_cases hunary : previous.all TokenKind.precedesUnary = true
    · rw [if_pos hunary] at hscan ⊢
      exact hscan
    · rw [if_neg hunary] at hscan ⊢
      exact hscan

theorem scans_mark {kind : TokenKind} {mark : String} (hmark : mark.toList = [c])
    (hblank : Text.isBlank c = false)
    (hscan : scan registry previous offset c rest = .ok (plain kind offset [c])) :
    Scans registry previous ⟨kind, mark, offset⟩ mark.toList rest := by
  refine ⟨c, [], hmark, hblank, ?_⟩
  rw [List.nil_append, hscan, plain, ← hmark, String.ofList_toList]

/-- A token is scanned where it is written. -/
theorem scans_written {token : Token} (htoken : token.Scannable registry)
    (hunary : token.kind.isOperator = true →
      (token.kind = .unaryOperator ↔ previous.all TokenKind.precedesUnary = true))
    (hrest : token.kind.Parted rest) : Scans registry previous token token.written.toList rest := by
  obtain ⟨kind, surface, offset⟩ := token
  cases kind with
  | number | hexadecimal =>
    obtain ⟨c, cs, hsurface, hstart, hnumber⟩ := htoken
    exact scans_number hsurface hstart hnumber (hrest.separated nofun)
  | text => exact scans_text htoken (hrest.unquoted rfl)
  | variableName => exact scans_name htoken (.inr rfl) (hrest.called (.inr rfl)) (hrest.separated nofun)
  | functionName => exact scans_name htoken (.inl rfl) (hrest.called (.inl rfl)) (hrest.separated nofun)
  | operator =>
    have hbinary : ¬ previous.all TokenKind.precedesUnary = true := fun h => nomatch (hunary rfl).mpr h
    have hscans := scans_operator htoken (hrest.separated nofun) previous offset
    rwa [if_neg hbinary] at hscans
  | unaryOperator =>
    obtain ⟨symbol, hsymbol, hrun⟩ := htoken
    simp only at hsymbol
    subst hsymbol
    have hscans := scans_operator hrun (hrest.separated nofun) previous offset
    rw [if_pos ((hunary rfl).mp rfl)] at hscans
    have hwritten : Token.written ⟨.unaryOperator, symbol ++ unaryMark, offset⟩ = symbol :=
      Token.unmarked_of_surface rfl
    rwa [hwritten]
  | openParen =>
    obtain rfl : surface = "(" := htoken
    have hmark : "(".toList = ['('] := by decide
    have hblank : Text.isBlank '(' = false := by decide
    exact scans_mark hmark hblank (scan_openParen registry previous offset rest)
  | closeParen =>
    obtain rfl : surface = ")" := htoken
    have hmark : ")".toList = [')'] := by decide
    have hblank : Text.isBlank ')' = false := by decide
    exact scans_mark hmark hblank (scan_closeParen registry previous offset rest)
  | comma =>
    obtain rfl : surface = "," := htoken
    have hmark : ",".toList = [','] := by decide
    have hblank : Text.isBlank ',' = false := by decide
    exact scans_mark hmark hblank (scan_comma registry previous offset rest)

/-- A scanned token is put to the others, and scanning goes on behind its last character. -/
theorem Scans.scanFrom_append {token : Token} (h : Scans registry (found.head?.map (·.token.kind)) token cs rest) :
    scanFrom registry found token.offset 0 (cs ++ rest) =
      scanFrom registry (⟨token, cs.length⟩ :: found) (token.offset + cs.length) 0 rest := by
  obtain ⟨c, more, rfl, hblank, hscan⟩ := h
  have hoffset : token.offset + 1 + more.length = token.offset + (c :: more).length := by
    rw [List.length_cons]
    omega
  rw [List.cons_append, scanFrom]
  simp only [hblank, Bool.false_eq_true, ↓reduceIte, hscan, List.length_cons, Nat.add_sub_cancel]
  rw [scanFrom_skip, hoffset, List.length_cons]

end Lexeme

theorem Token.Scannable.isOperator {registry : Registry} {token : Token} (h : token.Scannable registry)
    (hkind : token.kind = .operator) : Lexeme.IsOperator registry token.written.toList := by
  obtain ⟨kind, surface, offset⟩ := token
  cases hkind
  exact h

end Formula
