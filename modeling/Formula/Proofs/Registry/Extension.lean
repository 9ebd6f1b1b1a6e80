import Formula.Proofs.Registry.Entry
import Formula.Proofs.Token.Layout
import Formula.Rpn

/-! # Registrations that a text does not speak of

A registration changes one entry. A text in which its symbol is not written, or in which no function is
called by its name, is scanned as before, and the registry says of its tokens what it said before.
-/
namespace Formula

/-- Nothing that the text says is registered: an operator's symbol is no part of it, nor that of the
product that is not written, and no function is called by a function's name. -/
structure Registration.Spares (registration : Registration) (registry : Registry) (source : String) : Prop where
  product : registration.symbol? ≠ some Rpn.productSymbol
  symbol : ∀ symbol ∈ registration.symbol?, ¬ symbol.toList <:+: source.toList
  name : ∀ tokens, tokenize registry source = .ok tokens → ∀ token ∈ tokens,
    token.kind = .functionName → registration.functionKey? ≠ some (Text.lower token.surface)

structure Token.SameIn (registry next : Registry) (token : Token) : Prop where
  operator : token.kind.isOperator = true →
    next.operator? token.surface = registry.operator? token.surface
  function : token.kind = .functionName →
    next.function? token.surface = registry.function? token.surface

namespace Registry

/-- Neither a part of a text nor its marked form is a key of a symbol that is not written in it. -/
theorem ne_of_not_written {symbol : String} {source chars : List Char} (hsymbol : isSymbol symbol = true)
    (hwritten : ¬ symbol.toList <:+: source) (hchars : chars <:+: source) {key : String}
    (hkey : key = String.ofList chars ∨ key = String.ofList chars ++ unaryMark) :
    key ≠ symbol ∧ key ≠ symbol ++ unaryMark := by
  have hmark : unaryMark.toList = ['u'] := by decide
  have hletter := mark_not_mem hsymbol
  rcases hkey with rfl | rfl
  · constructor
    · rintro rfl
      rw [String.toList_ofList] at hwritten
      exact hwritten hchars
    · intro heq
      have hlist : chars = symbol.toList ++ ['u'] := by
        rw [← hmark, ← String.toList_append, ← heq, String.toList_ofList]
      rw [hlist] at hchars
      exact hwritten ((List.infix_append' [] _ _).trans hchars)
  · constructor
    · rintro rfl
      simp [hmark] at hletter
    · intro heq
      have hlist : chars ++ ['u'] = symbol.toList ++ ['u'] := by
        rw [← hmark, ← String.toList_append, ← heq, String.toList_append, String.toList_ofList]
      rw [List.append_cancel_right hlist] at hchars
      exact hwritten hchars

end Registry

namespace Registration.Spares

variable {registry next : Registry} {registration : Registration} {source : String}

/-- What is written in the text, with or without a mark, is registered as before. -/
theorem operator?_eq (h : registration.Spares registry source)
    (hnext : registry.register registration = .ok next) {chars : List Char}
    (hchars : chars <:+: source.toList) {key : String}
    (hkey : key = String.ofList chars ∨ key = String.ofList chars ++ unaryMark) :
    next.operator? key = registry.operator? key :=
  Registry.operator?_register hnext fun symbol hsymbol =>
    Registry.ne_of_not_written (Registry.isSymbol_of_register hnext hsymbol) (h.symbol symbol hsymbol)
      hchars hkey

theorem hasSymbol_eq (h : registration.Spares registry source)
    (hnext : registry.register registration = .ok next) {chars : List Char}
    (hchars : chars <:+: source.toList) :
    next.hasSymbol (String.ofList chars) = registry.hasSymbol (String.ofList chars) := by
  have hplain := h.operator?_eq hnext hchars (.inl rfl)
  have hmarked := h.operator?_eq hnext hchars (.inr rfl)
  unfold Registry.operator? at hplain hmarked
  rw [Registry.hasSymbol, Registry.hasSymbol, Table.contains, Table.contains, Table.contains,
    Table.contains, hplain, hmarked]

/-- The product that is not written is registered as before. -/
theorem product_eq (h : registration.Spares registry source)
    (hnext : registry.register registration = .ok next) :
    next.operator? Rpn.productSymbol = registry.operator? Rpn.productSymbol := by
  refine Registry.operator?_register hnext fun symbol hsymbol => ⟨?_, fun heq => ?_⟩
  · rintro rfl
    exact h.product hsymbol
  · have hlast := congrArg (fun key => key.toList.getLast?) heq
    have hmark : unaryMark.toList = ['u'] := by decide
    have hproduct : Rpn.productSymbol.toList.getLast? = some '*' := by decide
    simp [String.toList_append, hmark, hproduct] at hlast

theorem scan_eq (h : registration.Spares registry source)
    (hnext : registry.register registration = .ok next) (previous : Option TokenKind) (offset : Nat)
    {c : Char} {cs : List Char} (hsuffix : c :: cs <:+ source.toList) :
    Lexeme.scan next previous offset c cs = Lexeme.scan registry previous offset c cs := by
  have hrun := (List.takeWhile_prefix (p := Registry.isSymbolChar) (l := c :: cs)).isInfix.trans
    hsuffix.isInfix
  have hchars : Lexeme.operatorChars next ((c :: cs).takeWhile Registry.isSymbolChar) =
      Lexeme.operatorChars registry ((c :: cs).takeWhile Registry.isSymbolChar) :=
    (Lexeme.takes_operatorChars next _).eq
      ((Lexeme.takes_operatorChars registry _).congr fun other hother =>
        h.hasSymbol_eq hnext (hother.isInfix.trans hrun))
  simp only [Lexeme.scan, Lexeme.operator, hchars]

theorem scanFrom_eq (h : registration.Spares registry source)
    (hnext : registry.register registration = .ok next) (found : List Lexeme) (offset skip : Nat)
    {cs : List Char} (hsuffix : cs <:+ source.toList) :
    Lexeme.scanFrom next found offset skip cs = Lexeme.scanFrom registry found offset skip cs := by
  induction cs generalizing found offset skip with
  | nil => cases skip <;> rfl
  | cons c cs ih =>
    have hlater := (List.suffix_cons c cs).trans hsuffix
    cases skip with
    | succ skip => exact ih _ _ _ hlater
    | zero => simp only [Lexeme.scanFrom, h.scan_eq hnext _ _ hsuffix, ih _ _ _ hlater]

theorem tokenize_eq (h : registration.Spares registry source)
    (hnext : registry.register registration = .ok next) :
    tokenize next source = tokenize registry source := by
  rw [tokenize, tokenize, scanText, scanText, h.scanFrom_eq hnext _ _ _ List.suffix_rfl]

/-- The registry says of the text's tokens what it said before. -/
theorem sameIn (h : registration.Spares registry source)
    (hnext : registry.register registration = .ok next) {tokens : List Token}
    (htokens : tokenize registry source = .ok tokens) :
    ∀ token ∈ tokens, token.SameIn registry next := by
  intro token htoken
  refine ⟨fun hoperator => ?_, fun hkind => ?_⟩
  · obtain ⟨lexemes, rfl, hlayout⟩ := layout_of_tokenize htokens
    obtain ⟨lexeme, hmem, rfl⟩ := List.mem_map.mp htoken
    have hcovered : lexeme.covered source.toList <:+: source.toList :=
      (List.take_prefix _ _).isInfix.trans (List.drop_suffix _ _).isInfix
    have hspelled := hlayout.spelled lexeme hmem
    refine h.operator?_eq hnext hcovered ?_
    obtain ⟨⟨kind, surface, offset⟩, span⟩ := lexeme
    cases kind with
    | operator =>
      have hsurface : surface.toList = _ := hspelled
      exact .inl (by rw [← hsurface, String.ofList_toList])
    | unaryOperator =>
      have hsurface : surface.toList = _ ++ unaryMark.toList := hspelled
      refine .inr ?_
      rw [← String.toList_inj, hsurface, String.toList_append, String.toList_ofList]
    | number | hexadecimal | text | variableName | functionName | openParen | closeParen | comma =>
      cases hoperator
  · exact Registry.function?_register hnext (h.name tokens htokens token htoken hkind)

end Registration.Spares

end Formula
