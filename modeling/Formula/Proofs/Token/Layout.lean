import Formula.Library.Standard
import Formula.Proofs.Token.Longest
import Formula.Proofs.Token.Offset
import Mathlib.Data.List.Forall2

/-! # Where tokens lie in a text

The tokens of a text cover spans of it, one behind the other, and only blanks lie between them. A span
is spelled as its token says: the surface itself, without the mark of a unary operator, and for texts
pieces in quotes.
-/
namespace Formula

inductive Quoted : List (List Char) → List Char → Prop
  | last {piece : List Char} (hpiece : '\'' ∉ piece) : Quoted [piece] ('\'' :: (piece ++ ['\'']))
  | before {piece gap chars : List Char} {pieces : List (List Char)} (hpiece : '\'' ∉ piece)
      (hgap : ∀ c ∈ gap, Text.isBlank c = true) (h : Quoted pieces chars) :
      Quoted (piece :: pieces) ('\'' :: (piece ++ '\'' :: (gap ++ chars)))

def Token.Spells (token : Token) (chars : List Char) : Prop :=
  match token.kind with
  | .text => ∃ pieces, Quoted pieces chars ∧ token.surface.toList = pieces.flatten
  | .unaryOperator => token.surface.toList = chars ++ unaryMark.toList
  | _ => token.surface.toList = chars

namespace Quoted

variable {piece chars : List Char} {pieces : List (List Char)} {c : Char}

theorem head_eq (h : Quoted pieces chars) : ∃ more, chars = '\'' :: more := by
  cases h with
  | last => exact ⟨_, rfl⟩
  | before => exact ⟨_, rfl⟩

theorem not_mem_flatten (h : Quoted pieces chars) : '\'' ∉ pieces.flatten := by
  induction h with
  | last hpiece => simpa using hpiece
  | before hpiece _ _ ih =>
    rw [List.flatten_cons, List.mem_append, not_or]
    exact ⟨hpiece, ih⟩

/-- The first piece may begin with another character. -/
theorem cons (hc : c ≠ '\'') (h : Quoted (piece :: pieces) ('\'' :: chars)) :
    Quoted ((c :: piece) :: pieces) ('\'' :: c :: chars) := by
  have hmore : ∀ {piece : List Char}, '\'' ∉ piece → '\'' ∉ c :: piece := by
    intro piece hpiece hmem
    rcases List.mem_cons.mp hmem with heq | hmem
    · exact hc heq.symm
    · exact hpiece hmem
  cases h with
  | last hpiece => exact .last (hmore hpiece)
  | before hpiece hgap h => exact .before (hmore hpiece) hgap h

end Quoted

namespace Lexeme

variable {registry : Registry} {previous : Option TokenKind} {offset : Nat} {c : Char}
  {cs rest chars : List Char} {lexeme : Lexeme}

structure Reads (content : List Char) (pieces : List (List Char)) (lexeme : Lexeme) (rest : List Char) :
    Prop where
  kind : lexeme.token.kind = .text
  surface : lexeme.token.surface.toList = content.reverse ++ pieces.flatten
  unquoted : (rest.dropWhile Text.isBlank).head? ≠ some '\''

mutual
theorem quotedPiece_reads (start quote span : Nat) (content : List Char) : (cs : List Char) →
    quotedPiece start quote span content cs = .ok lexeme →
      ∃ piece pieces chars rest, cs = chars ++ rest ∧ Quoted (piece :: pieces) ('\'' :: chars) ∧
        lexeme.span = span + chars.length ∧ Reads content (piece :: pieces) lexeme rest
  | [], h => by simp [quotedPiece] at h
  | c :: cs, h => by
    unfold quotedPiece at h
    split at h
    next hc =>
      subst hc
      rcases afterPiece_reads start (span + 1) (span + 1) content cs h with
        ⟨hspan, hreads⟩ | ⟨gap, pieces, chars, rest, rfl, hgap, hquoted, hspan, hreads⟩
      · refine ⟨[], [], ['\''], cs, rfl, .last List.not_mem_nil, hspan, ?_⟩
        exact ⟨hreads.kind, by simpa using hreads.surface, hreads.unquoted⟩
      · refine ⟨[], pieces, '\'' :: (gap ++ chars), rest, by simp,
          .before List.not_mem_nil hgap hquoted, ?_, ?_⟩
        · rw [hspan, List.length_cons, List.length_append]
          omega
        · exact ⟨hreads.kind, by simpa using hreads.surface, hreads.unquoted⟩
    next hc =>
      obtain ⟨piece, pieces, chars, rest, rfl, hquoted, hspan, hreads⟩ :=
        quotedPiece_reads start quote (span + 1) (c :: content) cs h
      refine ⟨c :: piece, pieces, c :: chars, rest, rfl, hquoted.cons hc, ?_, ?_⟩
      · rw [hspan, List.length_cons]
        omega
      · exact ⟨hreads.kind, by simpa using hreads.surface, hreads.unquoted⟩
theorem afterPiece_reads (start closed span : Nat) (content : List Char) : (cs : List Char) →
    afterPiece start closed span content cs = .ok lexeme →
      (lexeme.span = closed ∧ Reads content [] lexeme cs) ∨
        ∃ gap pieces chars rest, cs = gap ++ chars ++ rest ∧ (∀ c ∈ gap, Text.isBlank c = true) ∧
          Quoted pieces chars ∧ lexeme.span = span + gap.length + chars.length ∧
            Reads content pieces lexeme rest
  | [], h => by
    obtain rfl := Except.ok.inj h
    exact .inl ⟨rfl, rfl, by simp, by simp⟩
  | c :: cs, h => by
    unfold afterPiece at h
    split at h
    next hc =>
      subst hc
      obtain ⟨piece, pieces, chars, rest, rfl, hquoted, hspan, hreads⟩ :=
        quotedPiece_reads start (start + span) (span + 1) content cs h
      refine .inr ⟨[], piece :: pieces, '\'' :: chars, rest, rfl, nofun, hquoted, ?_, hreads⟩
      rw [hspan, List.length_cons, List.length_nil]
      omega
    split at h
    next hc hblank =>
      have hdrop : (c :: cs).dropWhile Text.isBlank = cs.dropWhile Text.isBlank :=
        List.dropWhile_cons_of_pos hblank
      rcases afterPiece_reads start closed (span + 1) content cs h with
        ⟨hspan, hreads⟩ | ⟨gap, pieces, chars, rest, rfl, hgap, hquoted, hspan, hreads⟩
      · exact .inl ⟨hspan, hreads.kind, hreads.surface, hdrop ▸ hreads.unquoted⟩
      · refine .inr ⟨c :: gap, pieces, chars, rest, rfl, ?_, hquoted, ?_, hreads⟩
        · exact List.forall_mem_cons.mpr ⟨hblank, hgap⟩
        · rw [hspan, List.length_cons]
          omega
    next hc hblank =>
      obtain rfl := Except.ok.inj h
      refine .inl ⟨rfl, rfl, by simp, ?_⟩
      rw [List.dropWhile_cons_of_neg hblank]
      simpa using hc
end

structure Covers (registry : Registry) (token : Token) (chars rest : List Char) : Prop where
  nonempty : chars ≠ []
  spells : token.Spells chars
  scannable : token.Scannable registry
  taken : token.kind.isOperator = true →
    registry.Takes ((chars ++ rest).takeWhile Registry.isSymbolChar) chars
  called : token.kind = .functionName ∨ token.kind = .variableName →
    ((rest.dropWhile Text.isBlank).head? = some '(' ↔ token.kind = .functionName)
  unquoted : token.kind = .text → (rest.dropWhile Text.isBlank).head? ≠ some '\''

def Begins (registry : Registry) (lexeme : Lexeme) (cs : List Char) : Prop :=
  ∃ chars rest, cs = chars ++ rest ∧ lexeme.span = chars.length ∧ Covers registry lexeme.token chars rest

theorem number_begins (hstart : startsNumber c cs = true)
    (h : number offset (c :: cs) = .ok lexeme) : lexeme.Begins registry (c :: cs) := by
  obtain ⟨kind, chars, ⟨rest, hrest⟩, hnumber⟩ := number_inversion h
  have hplain := hnumber offset
  obtain rfl := Except.ok.inj (h.symm.trans hplain)
  obtain ⟨more, rfl, hmore⟩ := number_starts hstart hplain
  have htaken := number_taken hplain
  refine ⟨c :: more, rest, hrest.symm, rfl, ?_⟩
  rcases number_kind h with hkind | hkind
  all_goals
    obtain rfl : kind = _ := hkind
    refine ⟨List.cons_ne_nil _ _, ?_, ?_, nofun, nofun, nofun⟩
    · exact String.toList_ofList
    · exact ⟨c, more, String.toList_ofList, hmore, htaken⟩

theorem text_begins (h : quotedPiece offset offset 1 [] cs = .ok lexeme) :
    lexeme.Begins registry ('\'' :: cs) := by
  obtain ⟨piece, pieces, chars, rest, rfl, hquoted, hspan, hkind, hsurface, hrest⟩ :=
    quotedPiece_reads offset offset 1 [] cs h
  rw [List.reverse_nil, List.nil_append] at hsurface
  refine ⟨'\'' :: chars, rest, rfl, by rw [hspan, List.length_cons, Nat.add_comm], ?_⟩
  obtain ⟨⟨kind, surface, place⟩, span⟩ := lexeme
  obtain rfl : kind = .text := hkind
  refine ⟨List.cons_ne_nil _ _, ⟨_, hquoted, hsurface⟩, ?_, nofun, nofun, fun _ => hrest⟩
  have hsurface : surface.toList = (piece :: pieces).flatten := hsurface
  change '\'' ∉ surface.toList
  rw [hsurface]
  exact hquoted.not_mem_flatten

theorem name_begins (hstart : Registry.isNameStart c = true) (offset : Nat) (cs : List Char) :
    (name offset (c :: cs)).Begins registry (c :: cs) := by
  have hchar := isNameChar_of_isNameStart hstart
  have hname : Registry.isName (String.ofList ((c :: cs).takeWhile Registry.isNameChar)) = true := by
    have hall := forall_mem_takeWhile Registry.isNameChar (c :: cs)
    rw [List.takeWhile_cons_of_pos hchar] at hall ⊢
    simp only [Registry.isName, String.toList_ofList, hstart, Bool.true_and]
    exact List.all_eq_true.mpr hall
  obtain ⟨rest, hrest⟩ := List.takeWhile_prefix (p := Registry.isNameChar) (l := c :: cs)
  have hne : (c :: cs).takeWhile Registry.isNameChar ≠ [] := by
    rw [List.takeWhile_cons_of_pos hchar]
    exact List.cons_ne_nil _ _
  refine ⟨_, rest, hrest.symm, rfl, ?_⟩
  have hdrop : (c :: cs).drop ((c :: cs).takeWhile Registry.isNameChar).length = rest := by
    generalize (c :: cs).takeWhile Registry.isNameChar = characters at hrest
    rw [← hrest, List.drop_left]
  have hcovers : ∀ kind : TokenKind, kind = .functionName ∨ kind = .variableName →
      ((rest.dropWhile Text.isBlank).head? = some '(' ↔ kind = .functionName) →
      Covers registry (plain kind offset ((c :: cs).takeWhile Registry.isNameChar)).token
        ((c :: cs).takeWhile Registry.isNameChar) rest := by
    rintro kind (rfl | rfl) hcalled
    all_goals
      refine ⟨hne, String.toList_ofList, hname, ?_, fun _ => hcalled, ?_⟩
      · intro hoperator
        cases hoperator
      · intro htext
        cases htext
  simp only [name, hdrop]
  split
  next hcalled => exact hcovers _ (.inl rfl) (by simpa using hcalled)
  next hcalled => exact hcovers _ (.inr rfl) (by simpa using hcalled)

theorem mark_begins {kind : TokenKind} (hkind : kind = .openParen ∧ c = '(' ∨ kind = .closeParen ∧ c = ')' ∨
    kind = .comma ∧ c = ',') (offset : Nat) (cs : List Char) :
    (plain kind offset [c]).Begins registry (c :: cs) := by
  refine ⟨[c], cs, rfl, rfl, ?_⟩
  rcases hkind with ⟨rfl, rfl⟩ | ⟨rfl, rfl⟩ | ⟨rfl, rfl⟩
  · exact ⟨List.cons_ne_nil _ _, String.toList_ofList, rfl, nofun, nofun, nofun⟩
  · exact ⟨List.cons_ne_nil _ _, String.toList_ofList, rfl, nofun, nofun, nofun⟩
  · exact ⟨List.cons_ne_nil _ _, String.toList_ofList, rfl, nofun, nofun, nofun⟩

theorem operator_begins (h : operator registry previous offset c cs = .ok lexeme) :
    lexeme.Begins registry (c :: cs) := by
  unfold operator at h
  dsimp only at h
  split at h
  next => cases h
  next hrun =>
    have htakes := takes_operatorChars registry ((c :: cs).takeWhile Registry.isSymbolChar)
    have hne : operatorChars registry ((c :: cs).takeWhile Registry.isSymbolChar) ≠ [] := by
      rcases htakes with ⟨hne, -⟩ | ⟨hwhole, -⟩
      · exact hne
      · rw [hwhole]
        simpa using hrun
    have hoperator := isOperator_of_takes htakes hne (forall_mem_takeWhile Registry.isSymbolChar (c :: cs))
    generalize operatorChars registry ((c :: cs).takeWhile Registry.isSymbolChar) = chars at h htakes hne hoperator
    obtain ⟨rest, hrest⟩ := htakes.isPrefix.trans (List.takeWhile_prefix _)
    rw [← hrest] at htakes ⊢
    split at h
    all_goals
      obtain rfl := Except.ok.inj h
      refine ⟨chars, rest, rfl, rfl, hne, ?_, ?_, fun _ => htakes, nofun, nofun⟩
    · simp [Token.Spells]
    · refine ⟨String.ofList chars, rfl, ?_⟩
      rwa [String.toList_ofList]
    · simp [Token.Spells]
    · change IsOperator registry (String.ofList chars).toList
      rwa [String.toList_ofList]

theorem scan_begins (h : scan registry previous offset c cs = .ok lexeme) :
    lexeme.Begins registry (c :: cs) := by
  unfold scan at h
  split at h
  next hstart => exact number_begins hstart h
  split at h
  next hc =>
    subst hc
    exact text_begins h
  split at h
  next hstart =>
    obtain rfl := Except.ok.inj h
    exact name_begins hstart offset cs
  split at h
  next hc =>
    obtain rfl := Except.ok.inj h
    exact mark_begins (.inl ⟨rfl, hc⟩) offset cs
  split at h
  next hc =>
    obtain rfl := Except.ok.inj h
    exact mark_begins (.inr (.inl ⟨rfl, hc⟩)) offset cs
  split at h
  next hc =>
    obtain rfl := Except.ok.inj h
    exact mark_begins (.inr (.inr ⟨rfl, hc⟩)) offset cs
  · exact operator_begins h

/-- The lexemes of a text from `offset` on: each begins where the one before it ends, up to blanks. -/
inductive Laid (registry : Registry) : Nat → List Lexeme → List Char → Prop
  | done (offset : Nat) : Laid registry offset [] []
  | blank {offset : Nat} {lexemes : List Lexeme} {c : Char} {cs : List Char}
      (hblank : Text.isBlank c = true) (h : Laid registry (offset + 1) lexemes cs) :
      Laid registry offset lexemes (c :: cs)
  | lexeme {offset : Nat} {lexeme : Lexeme} {lexemes : List Lexeme} {chars rest : List Char}
      (hoffset : lexeme.token.offset = offset) (hspan : lexeme.span = chars.length)
      (hcovers : Covers registry lexeme.token chars rest)
      (h : Laid registry (offset + chars.length) lexemes rest) :
      Laid registry offset (lexeme :: lexemes) (chars ++ rest)

/-- A scan that ends lays its lexemes out, from the character on at which the latest one ends. -/
theorem scanFrom_laid {lexemes found : List Lexeme} {skip : Nat} (hskip : skip ≤ cs.length)
    (h : scanFrom registry found offset skip cs = (lexemes, none)) :
    ∃ more, lexemes = found.reverse ++ more ∧ Laid registry (offset + skip) more (cs.drop skip) := by
  induction cs generalizing found offset skip with
  | nil =>
    obtain rfl : skip = 0 := Nat.le_zero.mp hskip
    cases h
    exact ⟨[], by simp, .done offset⟩
  | cons c cs ih =>
    cases skip with
    | succ skip =>
      have hlater := ih (Nat.le_of_succ_le_succ hskip) h
      rwa [Nat.add_right_comm] at hlater
    | zero =>
      unfold scanFrom at h
      dsimp only at h
      split at h
      next hblank =>
        obtain ⟨more, hmore, hlaid⟩ := ih (Nat.zero_le _) h
        exact ⟨more, hmore, .blank hblank hlaid⟩
      split at h
      next => cases h
      next lexeme hscan =>
        obtain ⟨chars, rest, hchars, hspan, hcovers⟩ := scan_begins hscan
        obtain ⟨d, covered, rfl⟩ := List.exists_cons_of_ne_nil hcovers.nonempty
        rw [List.cons_append] at hchars
        obtain ⟨rfl, rfl⟩ := List.cons.inj hchars
        have hlength : lexeme.span - 1 = covered.length := by
          rw [hspan, List.length_cons]
          rfl
        rw [hlength] at h
        obtain ⟨more, hmore, hlaid⟩ := ih (by simp) h
        rw [List.drop_left] at hlaid
        have hbehind : Laid registry (offset + (c :: covered).length) more rest := by
          rwa [List.length_cons, Nat.add_comm covered.length, ← Nat.add_assoc]
        exact ⟨lexeme :: more, by simp [hmore], .lexeme (scan_offset hscan) hspan hcovers hbehind⟩

namespace Laid

variable {lexemes : List Lexeme}

theorem offset_le (h : Laid registry offset lexemes cs) :
    ∀ lexeme ∈ lexemes, offset ≤ lexeme.token.offset := by
  induction h with
  | done => nofun
  | blank _ _ ih => exact fun lexeme hmem => Nat.le_of_succ_le (ih lexeme hmem)
  | lexeme hoffset _ _ _ ih =>
    refine List.forall_mem_cons.mpr ⟨Nat.le_of_eq hoffset.symm, fun lexeme hmem => ?_⟩
    exact Nat.le_trans (Nat.le_add_right _ _) (ih lexeme hmem)

theorem disjoint (h : Laid registry offset lexemes cs) : lexemes.Pairwise fun first second =>
    first.token.offset + first.span ≤ second.token.offset := by
  induction h with
  | done => exact .nil
  | blank _ _ ih => exact ih
  | lexeme hoffset hspan _ h ih =>
    refine .cons (fun second hsecond => ?_) ih
    rw [hoffset, hspan]
    exact h.offset_le second hsecond

theorem covers (h : Laid registry offset lexemes cs) :
    ∀ lexeme ∈ lexemes, ∃ front chars rest, cs = front ++ (chars ++ rest) ∧
      lexeme.token.offset = offset + front.length ∧ lexeme.span = chars.length ∧
        Covers registry lexeme.token chars rest := by
  induction h with
  | done => nofun
  | @blank _ _ c cs _ _ ih =>
    intro lexeme hmem
    obtain ⟨front, chars, rest, rfl, hoffset, hspan, hcovers⟩ := ih lexeme hmem
    refine ⟨c :: front, chars, rest, rfl, ?_, hspan, hcovers⟩
    rw [hoffset, List.length_cons]
    omega
  | @lexeme _ _ _ covered rest hoffset hspan hcovers _ ih =>
    refine List.forall_mem_cons.mpr ⟨⟨[], covered, rest, rfl, hoffset, hspan, hcovers⟩, ?_⟩
    intro lexeme hmem
    obtain ⟨front, chars, others, rfl, hoffset, hspan, hcovers⟩ := ih lexeme hmem
    refine ⟨covered ++ front, chars, others, (List.append_assoc ..).symm, ?_, hspan, hcovers⟩
    rw [hoffset, List.length_append, Nat.add_assoc]

/-- A character that no lexeme covers is blank. -/
theorem isBlank_of_uncovered (h : Laid registry offset lexemes cs) {place : Nat}
    (hc : cs[place]? = some c)
    (huncovered : ∀ lexeme ∈ lexemes, offset + place < lexeme.token.offset ∨
      lexeme.token.offset + lexeme.span ≤ offset + place) : Text.isBlank c = true := by
  induction h generalizing place with
  | done => cases hc
  | blank hblank _ ih =>
    cases place with
    | zero =>
      obtain rfl := Option.some.inj hc
      exact hblank
    | succ place =>
      refine @ih place hc (fun lexeme hmem => ?_)
      have hlater := huncovered lexeme hmem
      omega
  | @lexeme _ _ _ covered rest hoffset hspan _ _ ih =>
    obtain ⟨hfirst, hothers⟩ := List.forall_mem_cons.mp huncovered
    have hbehind : covered.length ≤ place := by omega
    rw [List.getElem?_append_right hbehind] at hc
    refine ih hc (fun lexeme hmem => ?_)
    have hlater := hothers lexeme hmem
    omega

end Laid

def covered (source : List Char) (lexeme : Lexeme) : List Char :=
  (source.drop lexeme.token.offset).take lexeme.span

end Lexeme

/-- The lexemes cover spans of a text from the left to the right, in which the tokens are spelled, and
blanks lie between them. Operators cover as much of the symbol characters at their place as the registry
knows. -/
structure Layout (registry : Registry) (source : List Char) (lexemes : List Lexeme) : Prop where
  increasing : (lexemes.map (·.token.offset)).Pairwise (· < ·)
  disjoint : lexemes.Pairwise fun first second =>
    first.token.offset + first.span ≤ second.token.offset
  inside : ∀ lexeme ∈ lexemes, 0 < lexeme.span ∧ lexeme.token.offset + lexeme.span ≤ source.length
  spelled : ∀ lexeme ∈ lexemes, lexeme.token.Spells (lexeme.covered source)
  longest : ∀ lexeme ∈ lexemes, lexeme.token.kind.isOperator = true →
    registry.Takes ((source.drop lexeme.token.offset).takeWhile Registry.isSymbolChar)
      (lexeme.covered source)
  blank : ∀ (place : Nat) (c : Char), source[place]? = some c →
    (∀ lexeme ∈ lexemes, place < lexeme.token.offset ∨ lexeme.token.offset + lexeme.span ≤ place) →
      Text.isBlank c = true

theorem Lexeme.Laid.layout {registry : Registry} {source : List Char} {lexemes : List Lexeme}
    (h : Laid registry 0 lexemes source) : Layout registry source lexemes := by
  have hcovers : ∀ lexeme ∈ lexemes, 0 < lexeme.span ∧
      lexeme.token.offset + lexeme.span ≤ source.length ∧ ∃ rest,
        source.drop lexeme.token.offset = lexeme.covered source ++ rest ∧
          Covers registry lexeme.token (lexeme.covered source) rest := by
    intro lexeme hmem
    obtain ⟨front, chars, rest, rfl, hoffset, hspan, hcovers⟩ := h.covers lexeme hmem
    rw [Nat.zero_add] at hoffset
    have hcovered : lexeme.covered (front ++ (chars ++ rest)) = chars := by
      rw [covered, hoffset, hspan, List.drop_left, List.take_left]
    rw [hcovered, hoffset, hspan, List.drop_left]
    refine ⟨List.length_pos_iff.mpr hcovers.nonempty, ?_, rest, rfl, hcovers⟩
    simp only [List.length_append]
    omega
  refine
    { increasing := ?_
      disjoint := h.disjoint
      inside := fun lexeme hmem => ⟨(hcovers lexeme hmem).1, (hcovers lexeme hmem).2.1⟩
      spelled := fun lexeme hmem => ?_
      longest := fun lexeme hmem hoperator => ?_
      blank := fun place c hc huncovered => ?_ }
  · refine List.pairwise_map.mpr (h.disjoint.imp_of_mem fun hfirst _ hdisjoint => ?_)
    have hspan := (hcovers _ hfirst).1
    omega
  · obtain ⟨-, -, rest, -, hcovers⟩ := hcovers lexeme hmem
    exact hcovers.spells
  · obtain ⟨-, -, rest, hrest, hcovers⟩ := hcovers lexeme hmem
    rw [hrest]
    exact hcovers.taken hoperator
  · exact h.isBlank_of_uncovered hc (by simpa using huncovered)

theorem laid_of_tokenize {registry : Registry} {source : String} {tokens : List Token}
    (h : tokenize registry source = .ok tokens) :
    ∃ lexemes, lexemes.map (·.token) = tokens ∧ Lexeme.Laid registry 0 lexemes source.toList := by
  unfold tokenize scanText at h
  split at h
  next => cases h
  next lexemes hscan =>
    obtain ⟨more, hmore, hlaid⟩ := Lexeme.scanFrom_laid (Nat.zero_le _) hscan
    rw [List.reverse_nil, List.nil_append] at hmore
    subst hmore
    exact ⟨_, Except.ok.inj h, hlaid⟩

/-- Where a text is read, its tokens lie in it one behind the other. -/
theorem layout_of_tokenize {registry : Registry} {source : String} {tokens : List Token}
    (h : tokenize registry source = .ok tokens) :
    ∃ lexemes, lexemes.map (·.token) = tokens ∧ Layout registry source.toList lexemes := by
  obtain ⟨lexemes, htokens, hlaid⟩ := laid_of_tokenize h
  exact ⟨lexemes, htokens, hlaid.layout⟩

theorem adjacentTexts_layout :
    ∃ lexemes, lexemes.map (·.token) =
        [⟨.unaryOperator, "-u", 0⟩, ⟨.hexadecimal, "0x1f", 1⟩, ⟨.text, "ab", 6⟩] ∧
      Layout .standard "-0x1f 'a' 'b'".toList lexemes :=
  layout_of_tokenize (by decide +kernel)

end Formula
