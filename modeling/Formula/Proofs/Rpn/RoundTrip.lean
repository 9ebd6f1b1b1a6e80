import Formula.Proofs.Registry.Symbol
import Formula.Proofs.Token.Offset
import Formula.Proofs.Rpn.Parenthesised

/-! # Parenthesised terms are read as themselves

The text of a parenthesised term is scanned into its tokens, and these are listed as the term is. The
main statement says so for every registry that registrations lead to: no operator or function that is
registered besides changes how a parenthesised term is read.
-/
namespace Formula

namespace Lexeme

variable {registry : Registry}

/-- Only numbers start as numbers do. -/
theorem startsNumber_of_scan {previous : Option TokenKind} {offset : Nat} {c : Char} {cs : List Char}
    {lexeme : Lexeme} (h : scan registry previous offset c cs = .ok lexeme)
    (hkind : lexeme.token.kind = .number ∨ lexeme.token.kind = .hexadecimal) :
    startsNumber c cs = true ∧ number offset (c :: cs) = .ok lexeme := by
  unfold scan at h
  split at h
  next hstart => exact ⟨hstart, h⟩
  exfalso
  split at h
  · simp [quotedPiece_kind _ _ _ _ _ h] at hkind
  split at h
  · obtain hname | hname := name_kind offset (c :: cs)
    · simp [← Except.ok.inj h, hname] at hkind
    · simp [← Except.ok.inj h, hname] at hkind
  split at h
  · simp [← Except.ok.inj h, plain] at hkind
  split at h
  · simp [← Except.ok.inj h, plain] at hkind
  split at h
  · simp [← Except.ok.inj h, plain] at hkind
  · obtain ⟨-, hoperator⟩ | ⟨-, hoperator⟩ := operator_kind h
    · simp [hoperator] at hkind
    · simp [hoperator] at hkind

/-- A text that is one number as a whole is found again as this number. -/
theorem scannable_of_tokenize {surface : String} {kind : TokenKind}
    (hkind : kind = .number ∨ kind = .hexadecimal)
    (h : tokenize registry surface = .ok [⟨kind, surface, 0⟩]) (offset : Nat) :
    Token.Scannable registry ⟨kind, surface, offset⟩ := by
  suffices hnumber : ∃ c cs, surface.toList = c :: cs ∧ startsNumber c cs = true ∧
      ∀ offset, number offset (c :: cs) = .ok (plain kind offset (c :: cs)) by
    rcases hkind with rfl | rfl
    · exact hnumber
    · exact hnumber
  obtain ⟨c, cs, lexeme, hcs, hscan, htoken⟩ := scan_of_tokenize h rfl
  obtain ⟨hstart, hnumber⟩ := startsNumber_of_scan hscan (by simpa [htoken] using hkind)
  obtain ⟨other, chars, -, hall⟩ := number_inversion hnumber
  have hplain : plain other 0 chars = lexeme := Except.ok.inj ((hall 0).symm.trans hnumber)
  rw [← hplain] at htoken
  obtain ⟨rfl, hsurface⟩ : other = kind ∧ String.ofList chars = surface := by
    simpa [plain] using htoken
  have hchars : chars = c :: cs := by rw [← hcs, ← hsurface, String.toList_ofList]
  exact ⟨c, cs, hcs, hstart, fun offset => hchars ▸ hall offset⟩

structure OperandEnds (rest : List Char) : Prop where
  separated : Separated rest
  next : ∀ c ∈ (rest.dropWhile Text.isBlank).head?, c ≠ '(' ∧ c ≠ '\''

variable {rest : List Char}

theorem OperandEnds.nil : OperandEnds [] := ⟨nofun, nofun⟩

theorem OperandEnds.closing (rest : List Char) : OperandEnds (")".toList ++ rest) := by
  have hmark : ")".toList = [')'] := by decide
  have hblank : Text.isBlank ')' = false := by decide
  rw [hmark]
  refine ⟨separated_cons (by decide) rest, ?_⟩
  simp [hblank]

theorem OperandEnds.comma (rest : List Char) : OperandEnds (", ".toList ++ rest) := by
  have hmark : ", ".toList = [',', ' '] := by decide
  have hblank : Text.isBlank ',' = false := by decide
  rw [hmark]
  refine ⟨separated_cons (by decide) (' ' :: rest), ?_⟩
  simp [hblank]

/-- A sign comes next, after a blank. -/
theorem OperandEnds.sign {run : List Char} (hrun : IsOperator registry run) (rest : List Char) :
    OperandEnds (" ".toList ++ (run ++ rest)) := by
  have hmark : " ".toList = [' '] := by decide
  have hblank : Text.isBlank ' ' = true := by decide
  rw [hmark]
  refine ⟨separated_cons (by decide) _, ?_⟩
  cases run with
  | nil => exact absurd rfl hrun.nonempty
  | cons c run =>
    have hsymbol := isSymbolChar_iff.mp (hrun.symbols c List.mem_cons_self)
    simp [hblank, hsymbol]

theorem OperandEnds.parted (h : OperandEnds rest) {kind : TokenKind} (hkind : kind ≠ .functionName) :
    kind.Parted rest where
  separated _ := h.separated
  called _ := ⟨fun hopen => absurd rfl (h.next '(' hopen).1, fun hname => absurd hname hkind⟩
  unquoted _ hquote := absurd rfl (h.next '\'' hquote).2

/-- Between operands only the kinds around a place decide what is scanned there. -/
theorem parted_mark {kind : TokenKind}
    (hkind : kind ≠ .functionName ∧ kind ≠ .variableName ∧ kind ≠ .text)
    (h : kind ≠ .openParen → Separated rest) : kind.Parted rest where
  separated := h
  called hname := by
    rcases hname with hname | hname
    · exact absurd hname hkind.1
    · exact absurd hname hkind.2.1
  unquoted htext := absurd htext hkind.2.2

open Term Rpn

theorem scansTo_opening (mark : TokenOf .openParen) (hmark : mark.val.surface = "(")
    (previous : Option TokenKind) (rest : List Char) :
    ScansTo registry previous [mark.val] "(".toList rest := by
  obtain ⟨⟨kind, surface, offset⟩, hkind⟩ := mark
  cases hkind
  cases hmark
  have hplain : TokenKind.openParen ≠ .functionName ∧ TokenKind.openParen ≠ .variableName ∧
      TokenKind.openParen ≠ .text := by decide
  exact .token rfl nofun (parted_mark hplain fun h => absurd rfl h)

theorem scansTo_closing (previous : Option TokenKind) (h : OperandEnds rest) :
    ScansTo registry previous [closing.val] ")".toList rest :=
  .token rfl nofun (parted_mark (by decide) fun _ => h.separated)

theorem scansTo_blank (previous : Option TokenKind) (rest : List Char) :
    ScansTo registry previous [] " ".toList rest := by
  have hblank : " ".toList = [' '] := by decide
  rw [hblank]
  exact .blank registry previous rest

theorem scansTo_comma (previous : Option TokenKind) (rest : List Char) :
    ScansTo registry previous [comma.val] ", ".toList rest := by
  have hcomma : ", ".toList = ",".toList ++ " ".toList := by decide
  have hblank : " ".toList = [' '] := by decide
  rw [hcomma, ← List.append_nil [comma.val]]
  refine .append (.token rfl nofun (parted_mark (by decide) fun _ => ?_)) (scansTo_blank _ rest)
  rw [hblank]
  exact separated_cons (by decide) rest

/-- A sign with a blank behind it. -/
theorem scansTo_sign {sign : Token} {previous : Option TokenKind} (hsign : sign.Scannable registry)
    (hkind : sign.kind.isOperator = true)
    (hunary : sign.kind = .unaryOperator ↔ previous.all TokenKind.precedesUnary = true)
    (rest : List Char) : ScansTo registry previous [sign] (sign.written ++ " ").toList rest := by
  have hblank : " ".toList = [' '] := by decide
  have hseparated : Separated (" ".toList ++ rest) := by
    rw [hblank]
    exact separated_cons (by decide) rest
  have hmark : sign.kind ≠ .functionName ∧ sign.kind ≠ .variableName ∧ sign.kind ≠ .text := by
    generalize sign.kind = kind at hkind
    cases kind <;> simp [TokenKind.isOperator] at hkind ⊢
  rw [String.toList_append, ← List.append_nil [sign]]
  exact .append (.token hsign (fun _ => hunary) (parted_mark hmark fun _ => hseparated))
    (scansTo_blank _ rest)

structure OperandScanned (registry : Registry) (tokens : List Token) (text : String) : Prop where
  ends : ∀ previous, ∃ kind : TokenKind,
    kindAfter previous tokens = some kind ∧ kind.endsOperand = true
  scans : ∀ previous rest, OperandEnds rest → ScansTo registry previous tokens text.toList rest

theorem OperandScanned.leaf {leaf : Leaf} (h : leaf.token.Scannable registry) :
    OperandScanned registry [leaf.token] leaf.token.written where
  ends _ := ⟨leaf.token.kind, rfl, leaf.endsOperand⟩
  scans _ _ hrest := by
    refine .token h (fun hoperator => ?_) (hrest.parted (leaf.kind_ne rfl))
    simp [leaf.isOperator] at hoperator

theorem OperandScanned.prefixed {tokens : List Token} {text : String}
    (h : OperandScanned registry tokens text) {sign : Token} (hkind : sign.kind = .unaryOperator)
    (hsign : sign.Scannable registry) :
    OperandScanned registry (opening.val :: sign :: (tokens ++ [closing.val]))
      ("(" ++ sign.written ++ " " ++ text ++ ")") where
  ends _ := ⟨.closeParen, by simp [closing], rfl⟩
  scans previous rest hrest := by
    have hunary : sign.kind = .unaryOperator ↔
        (kindAfter previous [opening.val]).all TokenKind.precedesUnary = true :=
      ⟨fun _ => rfl, fun _ => hkind⟩
    have hoperator : sign.kind.isOperator = true := by rw [hkind]; rfl
    have hoperand := h.scans (some sign.kind) (")".toList ++ rest) (.closing rest)
    have hgroup := hoperand.append (scansTo_closing _ hrest)
    have hsigned := (scansTo_sign hsign hoperator hunary _).append hgroup
    have hopened := (scansTo_opening opening rfl previous _).append hsigned
    simpa using hopened

theorem OperandScanned.infixed {tokens more : List Token} {text further : String}
    (h : OperandScanned registry tokens text) (k : OperandScanned registry more further)
    {sign : Token} (hkind : sign.kind = .operator) (hsign : sign.Scannable registry) :
    OperandScanned registry (opening.val :: (tokens ++ sign :: (more ++ [closing.val])))
      ("(" ++ text ++ " " ++ sign.written ++ " " ++ further ++ ")") where
  ends _ := ⟨.closeParen, by simp [closing], rfl⟩
  scans previous rest hrest := by
    obtain ⟨kind, hkindAfter, hends⟩ := h.ends (some .openParen)
    have hbinary : sign.kind = .unaryOperator ↔
        (kindAfter (some .openParen) tokens).all TokenKind.precedesUnary = true := by
      simp [hkindAfter, precedesUnary_eq_false hends, hkind]
    have hoperator : sign.kind.isOperator = true := by rw [hkind]; rfl
    have hright := k.scans (some sign.kind) (")".toList ++ rest) (.closing rest)
    have hgroup := hright.append (scansTo_closing _ hrest)
    have hsigned := (scansTo_sign hsign hoperator hbinary _).append hgroup
    have hblank := (scansTo_blank (kindAfter (some .openParen) tokens) _).append hsigned
    have hleft := h.scans (some .openParen)
      (" ".toList ++ (sign.written.toList ++ (" ".toList ++ (further.toList ++ (")".toList ++ rest)))))
      (.sign (hsign.isOperator hkind) _)
    have hoperation := ScansTo.append (by simpa using hleft) hblank
    have hopened := (scansTo_opening opening rfl previous _).append hoperation
    simpa using hopened

def furtherText (texts : List String) : List Char := texts.flatMap fun text => ", ".toList ++ text.toList

theorem toList_intercalate (text : String) (texts : List String) :
    (", ".intercalate (text :: texts)).toList = text.toList ++ furtherText texts := by
  induction texts generalizing text with
  | nil => simp [furtherText]
  | cons next texts ih =>
    rw [String.intercalate_cons_cons, String.toList_append, String.toList_append, ih next]
    simp [furtherText]

structure FurtherScanned (registry : Registry) (tokens : List Token) (texts : List String) : Prop where
  ends : ∀ rest, OperandEnds rest → OperandEnds (furtherText texts ++ rest)
  scans : ∀ previous rest, OperandEnds rest → ScansTo registry previous tokens (furtherText texts) rest

theorem FurtherScanned.nil : FurtherScanned registry [] [] where
  ends _ h := h
  scans previous rest _ := .nil registry previous rest

theorem FurtherScanned.cons {tokens more : List Token} {text : String} {texts : List String}
    (h : OperandScanned registry tokens text) (k : FurtherScanned registry more texts) :
    FurtherScanned registry (comma.val :: (tokens ++ more)) (text :: texts) where
  ends rest _ := by
    have hcomma := OperandEnds.comma (text.toList ++ (furtherText texts ++ rest))
    simpa [furtherText] using hcomma
  scans previous rest hrest := by
    have hargument := h.scans (some .comma) _ (k.ends rest hrest)
    have harguments := hargument.append (k.scans (kindAfter (some .comma) tokens) rest hrest)
    have hfurther := (scansTo_comma previous _).append harguments
    simpa [furtherText] using hfurther

def ArgumentsScanned (registry : Registry) (tokens : List Token) (texts : List String) : Prop :=
  ∀ previous rest, OperandEnds rest →
    ScansTo registry previous tokens (", ".intercalate texts).toList rest

theorem ArgumentsScanned.nil : ArgumentsScanned registry [] [] := by
  intro previous rest _
  simpa using ScansTo.nil registry previous rest

theorem ArgumentsScanned.cons {tokens more : List Token} {text : String} {texts : List String}
    (h : OperandScanned registry tokens text) (k : FurtherScanned registry more texts) :
    ArgumentsScanned registry (tokens ++ more) (text :: texts) := by
  intro previous rest hrest
  have hargument := h.scans previous _ (k.ends rest hrest)
  rw [toList_intercalate]
  exact hargument.append (k.scans (kindAfter previous tokens) rest hrest)

theorem OperandScanned.call {tokens : List Token} {texts : List String}
    (h : ArgumentsScanned registry tokens texts) {mark : TokenOf .openParen}
    (hmark : mark.val.surface = "(") {name : Token} (hkind : name.kind = .functionName)
    (hname : name.Scannable registry) :
    OperandScanned registry (name :: mark.val :: (tokens ++ [closing.val]))
      (name.written ++ "(" ++ ", ".intercalate texts ++ ")") where
  ends _ := ⟨.closeParen, by simp [closing], rfl⟩
  scans previous rest hrest := by
    have hcalled : ∀ more, name.kind.Parted ("(".toList ++ more) := by
      intro more
      have hopen : "(".toList = ['('] := by decide
      have hblank : Text.isBlank '(' = false := by decide
      rw [hopen, hkind]
      exact ⟨fun _ => separated_cons (by decide) more, fun _ => by simp [hblank], nofun⟩
    have hoperator : name.kind.isOperator = true → (name.kind = .unaryOperator ↔
        previous.all TokenKind.precedesUnary = true) := by
      intro hoperator
      simp [hkind, TokenKind.isOperator] at hoperator
    have harguments := h (some mark.val.kind) (")".toList ++ rest) (.closing rest)
    have hclosed := harguments.append (scansTo_closing _ hrest)
    have hopened := (scansTo_opening mark hmark (some name.kind) _).append hclosed
    have hcall := (ScansTo.token hname hoperator (by
      rw [List.append_assoc]
      exact hcalled _)).append hopened
    simpa using hcall

end Lexeme

open Lexeme Rpn

theorem Leaf.Writable.scannable {registry : Registry} {leaf : Leaf} (h : leaf.Writable registry) :
    leaf.token.Scannable registry := by
  obtain ⟨⟨kind, surface, offset⟩, isLeaf⟩ := leaf
  cases kind with
  | number => exact scannable_of_tokenize (.inl rfl) h offset
  | hexadecimal => exact scannable_of_tokenize (.inr rfl) h offset
  | text => exact h
  | variableName => exact h
  | _ => cases isLeaf

namespace Term

variable {registry : Registry}

mutual
theorem operandScanned (hkeyed : registry.Keyed) : (term : Term) → term.Writable registry →
    OperandScanned registry term.spelling term.parenthesised
  | .atom leaf, h => .leaf h.scannable
  | .prefixed sign operand, ⟨⟨_, hop, hunary⟩, hoperand⟩ =>
    (operandScanned hkeyed operand hoperand).prefixed sign.property
      (hkeyed.scannable_unaryOperator sign.property hop hunary)
  | .infixed sign left right, ⟨⟨_, hop, hunary⟩, hleft, hright⟩ =>
    (operandScanned hkeyed left hleft).infixed (operandScanned hkeyed right hright) sign.property
      (hkeyed.scannable_operator sign.property hop hunary)
  | .call mark name arguments, ⟨hmark, hname, _, harguments⟩ =>
    .call (argumentsScanned hkeyed arguments harguments) hmark name.property (by
      obtain ⟨⟨kind, surface, offset⟩, hkind⟩ := name
      cases hkind
      exact hname)
theorem argumentsScanned (hkeyed : registry.Keyed) : (terms : List Term) →
    AllWritable registry terms → ArgumentsScanned registry (spellings terms) (parenthesisedAll terms)
  | [], _ => .nil
  | term :: terms, ⟨hterm, hterms⟩ =>
    .cons (operandScanned hkeyed term hterm) (furtherScanned hkeyed terms hterms)
theorem furtherScanned (hkeyed : registry.Keyed) : (terms : List Term) →
    AllWritable registry terms → FurtherScanned registry (furtherSpellings terms) (parenthesisedAll terms)
  | [], _ => .nil
  | term :: terms, ⟨hterm, hterms⟩ =>
    .cons (operandScanned hkeyed term hterm) (furtherScanned hkeyed terms hterms)
end

end Term

/-- A parenthesised term is read as itself: its text scans, its tokens are listed and accepted, and
the notation is that of the term up to the places of its tokens. -/
theorem parenthesised_term_reads_back {registry : Registry} (hregistry : registry.Reachable)
    {term : Term} (hterm : term.Writable registry) :
    ∃ tokens rpn, tokenize registry term.parenthesised = .ok tokens ∧
      checked registry tokens = .ok rpn ∧
      rpn.map Token.unplaced = term.listing.map Token.unplaced := by
  have hscanned := Term.operandScanned hregistry.keyed term hterm
  obtain ⟨tokens, htokens, hunplaced⟩ := tokenize_of_scansTo (hscanned.scans none [] .nil)
  have hspelled := checked_unplaced registry term.spelling
  rw [checked_spelling hterm] at hspelled
  have hfound := checked_unplaced registry tokens
  rw [hunplaced, hspelled.of_ok_left] at hfound
  obtain ⟨rpn, hrpn, hlisted⟩ := hfound.of_ok_right
  exact ⟨tokens, rpn, htokens, hrpn, hlisted⟩

def Term.mixedList : Term :=
  .call ⟨⟨.openParen, "(", 4⟩, rfl⟩ ⟨⟨.functionName, "list", 0⟩, rfl⟩
    [.prefixed ⟨⟨.unaryOperator, "-u", 5⟩, rfl⟩ (.atom ⟨⟨.variableName, "x", 6⟩, rfl⟩),
     .infixed ⟨⟨.operator, "^", 14⟩, rfl⟩ (.atom ⟨⟨.hexadecimal, "0x1F", 9⟩, rfl⟩)
       (.atom ⟨⟨.number, ".5e-3", 16⟩, rfl⟩),
     .atom ⟨⟨.text, "a b", 23⟩, rfl⟩]

theorem mixedList_reads_back :
    Term.mixedList.parenthesised = "list((- x), (0x1F ^ .5e-3), 'a b')" ∧
      ∃ tokens rpn, tokenize .standard Term.mixedList.parenthesised = .ok tokens ∧
        checked .standard tokens = .ok rpn ∧
        rpn.map Token.unplaced = Term.mixedList.listing.map Token.unplaced := by
  have hwritable : Term.mixedList.Writable .standard := by
    refine ⟨rfl, by decide, ⟨_, rfl, by decide⟩, ⟨⟨_, rfl, rfl⟩, ?_⟩, ⟨⟨_, rfl, rfl⟩, ?_, ?_⟩, ?_,
      trivial⟩
    · change Registry.isName "x" = true
      decide
    · change tokenize .standard "0x1F" = .ok [⟨.hexadecimal, "0x1F", 0⟩]
      rfl
    · change tokenize .standard ".5e-3" = .ok [⟨.number, ".5e-3", 0⟩]
      rfl
    · change '\'' ∉ "a b".toList
      decide
  exact ⟨by decide +kernel, parenthesised_term_reads_back .standard hwritable⟩

end Formula
