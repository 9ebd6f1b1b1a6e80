import Formula.Proofs.Token.Layout
import Formula.Proofs.Token.Sequence
import Mathlib.Data.List.Chain

/-! # The order of the tokens of a text

What stands before a token tells whether an operator is unary, a function's name stands before the
parenthesis that opens its arguments, and no two texts are neighbours, because pieces in quotes with only
blanks between them are one text.
-/
namespace Formula

/-- Tokens stand in the order in which the tokens of a text do. -/
structure Orderly (tokens : List Token) : Prop where
  /-- An operator is unary exactly where it is the first token or follows an operator, a unary operator, an
  opening parenthesis or a comma. -/
  unary : ∀ ⦃front token back⦄, tokens = front ++ token :: back → token.kind.isOperator = true →
    (token.kind = .unaryOperator ↔ front = [] ∨ ∃ before, front.getLast? = some before ∧
      before.kind ∈ [TokenKind.operator, .unaryOperator, .openParen, .comma])
  opened : ∀ ⦃front name back⦄, tokens = front ++ name :: back → name.kind = .functionName →
    ∃ opening rest, back = opening :: rest ∧ opening.kind = .openParen
  apart : ∀ ⦃front first second back⦄, tokens = front ++ first :: second :: back →
    ¬ (first.kind = .text ∧ second.kind = .text)

theorem TokenKind.precedesUnary_iff {kind : TokenKind} :
    kind.precedesUnary = true ↔ kind ∈ [TokenKind.operator, .unaryOperator, .openParen, .comma] := by
  cases kind <;> decide

namespace Successive

variable {previous : Option TokenKind} {front tokens : List Token} {token : Token}

theorem of_append (h : Successive previous (front ++ tokens)) :
    Successive (kindAfter previous front) tokens := by
  induction front generalizing previous with
  | nil => exact h
  | cons token front ih => exact ih h.2

theorem exists_opening (h : Successive (some .functionName) tokens) :
    ∃ opening rest, tokens = opening :: rest ∧ opening.kind = .openParen := by
  cases tokens with
  | nil => exact absurd rfl h
  | cons opening rest => exact ⟨opening, rest, rfl, h.1.opened rfl⟩

end Successive

theorem all_kindAfter_iff (front : List Token) :
    (kindAfter none front).all TokenKind.precedesUnary = true ↔
      front = [] ∨ ∃ before, front.getLast? = some before ∧
        before.kind ∈ [TokenKind.operator, .unaryOperator, .openParen, .comma] := by
  rcases List.eq_nil_or_concat front with rfl | ⟨rest, before, rfl⟩
  · simp
  · rw [List.concat_eq_append, kindAfter_append, kindAfter_cons, kindAfter_nil, Option.all_some,
      TokenKind.precedesUnary_iff]
    simp

namespace Lexeme.Laid

variable {registry : Registry} {offset : Nat} {lexeme : Lexeme} {lexemes : List Lexeme} {cs : List Char}

/-- Before a text there are only blanks up to its quote. -/
theorem head_quote (h : Laid registry offset (lexeme :: lexemes) cs) (htext : lexeme.token.kind = .text) :
    (cs.dropWhile Text.isBlank).head? = some '\'' := by
  generalize hall : lexeme :: lexemes = all at h
  induction h with
  | done => cases hall
  | blank hblank _ ih =>
    rw [List.dropWhile_cons_of_pos hblank]
    exact ih hall
  | lexeme _ _ hcovers =>
    obtain ⟨rfl, -⟩ := List.cons.inj hall
    have hspells := hcovers.spells
    simp only [Token.Spells, htext] at hspells
    obtain ⟨pieces, hquoted, -⟩ := hspells
    obtain ⟨more, rfl⟩ := hquoted.head_eq
    have hquote : ¬ Text.isBlank '\'' = true := by decide
    rw [List.cons_append, List.dropWhile_cons_of_neg hquote]
    rfl

/-- No piece in quotes is left behind a text, so the next lexeme is none. -/
theorem apart (h : Laid registry offset lexemes cs) :
    lexemes.IsChain fun first second => ¬ (first.token.kind = .text ∧ second.token.kind = .text) := by
  induction h with
  | done => exact .nil
  | blank _ _ ih => exact ih
  | @lexeme _ first lexemes _ _ _ _ hcovers hrest ih =>
    cases lexemes with
    | nil => exact .singleton first
    | cons second lexemes =>
      refine .cons_cons (fun htexts => ?_) ih
      exact hcovers.unquoted htexts.1 (hrest.head_quote htexts.2)

end Lexeme.Laid

theorem orderly_of_tokenize {registry : Registry} {source : String} {tokens : List Token}
    (h : tokenize registry source = .ok tokens) : Orderly tokens := by
  have hsuccessive := successive_of_tokenize h
  obtain ⟨lexemes, htokens, hlaid⟩ := laid_of_tokenize h
  refine
    { unary := fun front token back hsplit hoperator => ?_
      opened := fun front name back hsplit hname => ?_
      apart := fun front first second back hsplit => ?_ }
  · rw [hsplit] at hsuccessive
    exact (hsuccessive.of_append.1.unary hoperator).trans (all_kindAfter_iff front)
  · rw [hsplit] at hsuccessive
    have hrest := hsuccessive.of_append.2
    rw [hname] at hrest
    exact hrest.exists_opening
  · have hchain : tokens.IsChain fun first second => ¬ (first.kind = .text ∧ second.kind = .text) := by
      rw [← htokens, List.isChain_map]
      exact hlaid.apart
    exact List.isChain_iff_forall_rel_of_append_cons_cons.mp hchain hsplit

end Formula
