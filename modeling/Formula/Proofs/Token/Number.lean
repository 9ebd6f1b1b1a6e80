import Formula.Proofs.Failure.Place
import Formula.Proofs.Token.Character

/-! # Numbers end at separators

A number covers the first characters of a text. What stands behind a separator plays no part in where
it ends, nor does the place at which it begins.
-/
namespace Formula

namespace Lexeme

variable {offset : Nat} {c : Char} {cs rest : List Char}

def Separated (rest : List Char) : Prop := ∀ c ∈ rest.head?, isSeparator c = true

theorem separated_nil : Separated [] := nofun

theorem separated_cons (h : isSeparator c = true) (rest : List Char) : Separated (c :: rest) := by
  intro d hd
  obtain rfl : c = d := by simpa using hd
  exact h

section Separated

variable {p : Char → Bool}

theorem takeWhile_append (h : ∀ c ∈ rest.head?, p c = false) (cs : List Char) :
    (cs ++ rest).takeWhile p = cs.takeWhile p := by
  induction cs with
  | nil =>
    cases rest with
    | nil => rfl
    | cons c rest => simp [h c rfl]
  | cons c cs ih =>
    by_cases hc : p c = true
    · simp [hc, ih]
    · simp [hc]

theorem dropWhile_append (h : ∀ c ∈ rest.head?, p c = false) (cs : List Char) :
    (cs ++ rest).dropWhile p = cs.dropWhile p ++ rest := by
  induction cs with
  | nil =>
    cases rest with
    | nil => rfl
    | cons c rest => simp [h c rfl]
  | cons c cs ih =>
    by_cases hc : p c = true
    · simp [hc, ih]
    · simp [hc]

theorem takeWhile_exact (hcs : ∀ c ∈ cs, p c = true) (h : ∀ c ∈ rest.head?, p c = false) :
    (cs ++ rest).takeWhile p = cs := by
  have hrest := takeWhile_append h []
  rw [List.nil_append, List.takeWhile_nil] at hrest
  rw [List.takeWhile_append_of_pos hcs, hrest, List.append_nil]

theorem dropWhile_exact (hcs : ∀ c ∈ cs, p c = true) (h : ∀ c ∈ rest.head?, p c = false) :
    (cs ++ rest).dropWhile p = rest := by
  have hrest := dropWhile_append h []
  rw [List.nil_append, List.dropWhile_nil, List.nil_append] at hrest
  rw [List.dropWhile_append_of_pos hcs, hrest]

theorem forall_mem_takeWhile (p : Char → Bool) (cs : List Char) : ∀ c ∈ cs.takeWhile p, p c = true :=
  List.all_eq_true.mp List.all_takeWhile

theorem takeWhile_taken (p : Char → Bool) (cs : List Char) :
    (cs.takeWhile p).takeWhile p = cs.takeWhile p := by
  have hnone : ∀ c ∈ ([] : List Char).head?, p c = false := nofun
  have htaken := takeWhile_exact (forall_mem_takeWhile p cs) hnone
  rwa [List.append_nil] at htaken

theorem dropWhile_taken (p : Char → Bool) (cs : List Char) : (cs.takeWhile p).dropWhile p = [] := by
  have hnone : ∀ c ∈ ([] : List Char).head?, p c = false := nofun
  have hdropped := dropWhile_exact (forall_mem_takeWhile p cs) hnone
  rwa [List.append_nil] at hdropped

theorem Separated.digit (h : Separated rest) : ∀ c ∈ rest.head?, Text.isAsciiDigit c = false :=
  fun c hc => (not_mem_of_isSeparator (h c hc)).2.2.2.1

theorem Separated.hexDigit (h : Separated rest) : ∀ c ∈ rest.head?, isHexDigit c = false :=
  fun c hc => (not_mem_of_isSeparator (h c hc)).2.2.1

theorem Separated.symbolChar (h : Separated rest) :
    ∀ c ∈ rest.head?, Registry.isSymbolChar c = false :=
  fun c hc => (not_mem_of_isSeparator (h c hc)).2.1

theorem Separated.nameChar (h : Separated rest) : ∀ c ∈ rest.head?, Registry.isNameChar c = false :=
  fun c hc => (not_mem_of_isSeparator (h c hc)).1

/-- What follows does not start with a character that a number may go on with. -/
theorem Separated.ne (h : Separated (c :: cs)) :
    c ∉ ['.', 'e', 'E', '+', '-', 'x', 'X', '\''] :=
  (not_mem_of_isSeparator (h c rfl)).2.2.2.2

theorem Separated.point (h : Separated rest) : ∀ c ∈ rest.head?, c ≠ '.' := by
  intro c hc heq
  have hseparator := (not_mem_of_isSeparator (h c hc)).2.2.2.2
  simp [heq] at hseparator

end Separated

theorem exponentPart_append (h : Separated rest) (cs : List Char) :
    exponentPart (cs ++ rest) = exponentPart cs := by
  have hdigits := takeWhile_append h.digit
  rcases cs with _ | ⟨mark, _ | ⟨sign, more⟩⟩
  · cases rest with
    | nil => rfl
    | cons c rest =>
      have hc := h.ne
      simp only [List.mem_cons, not_or] at hc
      simp [exponentPart, hc]
  · cases rest with
    | nil => rfl
    | cons c rest =>
      have hc := h.ne
      simp only [List.mem_cons, not_or] at hc
      have hnone := hdigits []
      simp only [List.nil_append, List.takeWhile_nil] at hnone
      simp [exponentPart, hc, hnone]
  · have hsigned := hdigits (sign :: more)
    simp only [List.cons_append] at hsigned
    simp only [exponentPart, List.cons_append, hdigits, hsigned]

theorem digitsPart_append (hdigit : ∀ c ∈ rest.head?, Text.isAsciiDigit c = false)
    (hpoint : ∀ c ∈ rest.head?, c ≠ '.') (offset : Nat) (cs : List Char) :
    digitsPart offset (cs ++ rest) = digitsPart offset cs := by
  have hdigits := takeWhile_append hdigit
  have hothers := dropWhile_append hdigit
  simp only [digitsPart, hdigits, hothers]
  cases cs.dropWhile Text.isAsciiDigit with
  | nil =>
    cases rest with
    | nil => rfl
    | cons c rest =>
      have hc := hpoint c rfl
      split
      next heq => simp_all
      next => rfl
  | cons d more =>
    by_cases hd : d = '.'
    · subst hd
      simp only [List.cons_append, hdigits, hothers]
      cases more.dropWhile Text.isAsciiDigit with
      | cons d tail =>
        by_cases hsecond : d = '.'
        · subst hsecond
          rfl
        · split <;> simp_all
      | nil =>
        cases rest with
        | nil => rfl
        | cons c rest =>
          have hc := hpoint c rfl
          split
          next heq => simp_all
          next => rfl
    · split
      next heq => simp_all
      next => split <;> simp_all

theorem digitsPart_isPrefix {digits : List Char} (h : digitsPart offset cs = .ok digits) :
    digits <+: cs := by
  unfold digitsPart at h
  dsimp only at h
  have hcs := List.takeWhile_append_dropWhile (p := Text.isAsciiDigit) (l := cs)
  split at h
  next more hmore =>
    split at h
    · cases h
    · rw [← Except.ok.inj h]
      refine ⟨more.dropWhile Text.isAsciiDigit, ?_⟩
      rw [List.append_assoc, List.cons_append, List.takeWhile_append_dropWhile, ← hmore, hcs]
  next =>
    rw [← Except.ok.inj h]
    exact List.takeWhile_prefix _

theorem decimal_append (h : Separated rest) (offset : Nat) (cs : List Char) :
    decimal offset (cs ++ rest) = decimal offset cs := by
  simp only [decimal, digitsPart_append h.digit h.point]
  cases hdigits : digitsPart offset cs with
  | error failure => rfl
  | ok digits =>
    have hlength := (digitsPart_isPrefix hdigits).length_le
    simp only [bind, Except.bind, List.drop_append_of_le_length hlength, exponentPart_append h]

theorem hexadecimal_append (h : Separated rest) (offset : Nat) (zero mark : Char) (cs : List Char) :
    hexadecimal offset zero mark (cs ++ rest) = hexadecimal offset zero mark cs := by
  simp only [hexadecimal, takeWhile_append h.hexDigit]

theorem number_append (h : Separated rest) (offset : Nat) (c : Char) (cs : List Char) :
    number offset (c :: cs ++ rest) = number offset (c :: cs) := by
  have hdecimal := decimal_append h offset (c :: cs)
  rw [List.cons_append] at hdecimal ⊢
  unfold number
  cases cs with
  | nil =>
    cases rest with
    | nil => rfl
    | cons d rest =>
      have hd := h.ne
      simp only [List.mem_cons, not_or] at hd
      simp only [List.nil_append] at hdecimal ⊢
      split <;> simp_all
  | cons d more =>
    have hhex := hexadecimal_append h offset
    simp only [List.cons_append] at hdecimal ⊢
    split
    next heq =>
      obtain ⟨rfl, rfl, rfl⟩ := by simpa using heq
      exact hhex '0' 'x' more
    next heq =>
      obtain ⟨rfl, rfl, rfl⟩ := by simpa using heq
      exact hhex '0' 'X' more
    next hlower hupper =>
      rw [hdecimal]
      split <;> simp_all

theorem exponentPart_isPrefix (cs : List Char) : exponentPart cs <+: cs := by
  have hdigits := List.takeWhile_prefix (p := Text.isAsciiDigit) (l := cs)
  unfold exponentPart
  split
  next mark rest =>
    split
    · split
      next sign more =>
        split
        · dsimp only
          split
          · exact List.nil_prefix
          · exact List.cons_prefix_cons.mpr
              ⟨rfl, List.cons_prefix_cons.mpr ⟨rfl, List.takeWhile_prefix _⟩⟩
        · dsimp only
          split
          · exact List.nil_prefix
          · exact List.cons_prefix_cons.mpr ⟨rfl, List.takeWhile_prefix _⟩
      next => exact List.nil_prefix
    · exact List.nil_prefix
  next => exact List.nil_prefix

theorem digitsPart_offset {digits : List Char} (h : digitsPart offset cs = .ok digits) (other : Nat) :
    digitsPart other cs = .ok digits := by
  unfold digitsPart at h ⊢
  dsimp only at h ⊢
  split at h
  next =>
    split at h
    · cases h
    · exact h
  next => exact h

theorem decimal_inversion {lexeme : Lexeme} (h : decimal offset cs = .ok lexeme) :
    ∃ chars, chars <+: cs ∧ ∀ other, decimal other cs = .ok (plain .number other chars) := by
  obtain ⟨digits, hdigits, -⟩ := exists_of_bind_eq_ok h
  obtain ⟨more, hmore⟩ := digitsPart_isPrefix hdigits
  have hexponent := exponentPart_isPrefix (cs.drop digits.length)
  refine ⟨digits ++ exponentPart (cs.drop digits.length), ?_, fun other => ?_⟩
  · rw [← hmore, List.drop_left] at hexponent ⊢
    exact (List.prefix_append_right_inj _).mpr hexponent
  · simp [decimal, digitsPart_offset hdigits other, bind, Except.bind, pure, Except.pure]

theorem hexadecimal_inversion {zero mark : Char} {lexeme : Lexeme}
    (h : hexadecimal offset zero mark cs = .ok lexeme) :
    ∃ chars, chars <+: zero :: mark :: cs ∧
      ∀ other, hexadecimal other zero mark cs = .ok (plain .hexadecimal other chars) := by
  unfold hexadecimal at h
  dsimp only at h
  split at h
  next => cases h
  next hdigits =>
    refine ⟨zero :: mark :: cs.takeWhile isHexDigit, ?_, fun other => ?_⟩
    · exact List.cons_prefix_cons.mpr ⟨rfl, List.cons_prefix_cons.mpr ⟨rfl, List.takeWhile_prefix _⟩⟩
    · simp [hexadecimal, hdigits]

/-- A number covers the first characters of a text, the same ones at every offset. -/
theorem number_inversion {lexeme : Lexeme} (h : number offset cs = .ok lexeme) :
    ∃ kind chars, chars <+: cs ∧ ∀ other, number other cs = .ok (plain kind other chars) := by
  unfold number at h ⊢
  split at h
  next => exact ⟨_, hexadecimal_inversion h⟩
  next => exact ⟨_, hexadecimal_inversion h⟩
  next hlower hupper =>
    obtain ⟨chars, hchars, hdecimal⟩ := decimal_inversion h
    exact ⟨.number, chars, hchars, hdecimal⟩

theorem exponentPart_head (cs : List Char) : ∀ c ∈ (exponentPart cs).head?, c = 'e' ∨ c = 'E' := by
  intro c hc
  unfold exponentPart at hc
  split at hc
  next mark more =>
    split at hc
    next hmark =>
      split at hc
      · split at hc
        all_goals
          dsimp only at hc
          split at hc
          · cases hc
          · obtain rfl : mark = c := by simpa using hc
            exact hmark
      · cases hc
    next => cases hc
  next => cases hc

/-- The characters of an exponent are one by themselves. -/
theorem exponentPart_taken (cs : List Char) : exponentPart (exponentPart cs) = exponentPart cs := by
  generalize hchars : exponentPart cs = chars
  unfold exponentPart at hchars
  split at hchars
  next mark more =>
    split at hchars
    next hmark =>
      split at hchars
      next sign digits =>
        split at hchars
        next hsign =>
          dsimp only at hchars
          split at hchars
          next => rw [← hchars]; rfl
          next hdigits =>
            rw [← hchars]
            simp [exponentPart, hmark, hsign, takeWhile_taken, hdigits]
        next hsign =>
          dsimp only at hchars
          split at hchars
          next => rw [← hchars]; rfl
          next hdigits =>
            rw [← hchars]
            have htaken := takeWhile_taken Text.isAsciiDigit (sign :: digits)
            cases htake : (sign :: digits).takeWhile Text.isAsciiDigit with
            | nil => simp [htake] at hdigits
            | cons first later =>
              obtain rfl : sign = first := by
                have hprefix := List.takeWhile_prefix (p := Text.isAsciiDigit) (l := sign :: digits)
                rw [htake] at hprefix
                exact (List.cons_prefix_cons.mp hprefix).1.symm
              rw [htake] at htaken
              simp [exponentPart, hmark, hsign, htaken]
      next => rw [← hchars]; rfl
    next => rw [← hchars]; rfl
  next => rw [← hchars]; rfl

theorem digitsPart_taken {digits : List Char} (h : digitsPart offset cs = .ok digits) (other : Nat) :
    digitsPart other digits = .ok digits := by
  have hpoint : ∀ more : List Char, ∀ c ∈ ('.' :: more).head?, Text.isAsciiDigit c = false := by
    intro more c hc
    obtain rfl : '.' = c := by simpa using hc
    decide
  have hdigits := forall_mem_takeWhile Text.isAsciiDigit cs
  unfold digitsPart at h
  dsimp only at h
  split at h
  next more hmore =>
    split at h
    next => cases h
    next =>
      obtain rfl := Except.ok.inj h
      simp only [digitsPart, takeWhile_exact hdigits (hpoint _), dropWhile_exact hdigits (hpoint _),
        takeWhile_taken, dropWhile_taken]
  next =>
    obtain rfl := Except.ok.inj h
    simp only [digitsPart, takeWhile_taken, dropWhile_taken]

theorem plain_inj {kind other : TokenKind} {chars more : List Char}
    (h : plain kind offset chars = plain other offset more) : kind = other ∧ chars = more := by
  have hkind := congrArg (fun lexeme => lexeme.token.kind) h
  have hsurface := congrArg (fun lexeme => lexeme.token.surface.toList) h
  simp only [plain, String.toList_ofList] at hkind hsurface
  exact ⟨hkind, hsurface⟩

/-- The characters of a decimal number are the number by themselves. -/
theorem decimal_taken {chars : List Char} (h : decimal offset cs = .ok (plain .number offset chars))
    (other : Nat) : decimal other chars = .ok (plain .number other chars) := by
  obtain ⟨digits, hdigits, hplain⟩ := exists_of_bind_eq_ok h
  obtain ⟨-, rfl⟩ := plain_inj (Except.ok.inj hplain)
  have hhead := exponentPart_head (cs.drop digits.length)
  have htaken := exponentPart_taken (cs.drop digits.length)
  generalize exponentPart (cs.drop digits.length) = exponent at hhead htaken
  have hdigit : ∀ c ∈ exponent.head?, Text.isAsciiDigit c = false := by
    intro c hc
    rcases hhead c hc with rfl | rfl <;> decide
  have hpoint : ∀ c ∈ exponent.head?, c ≠ '.' := by
    intro c hc
    rcases hhead c hc with rfl | rfl <;> decide
  have hwhole := (digitsPart_append hdigit hpoint other digits).trans (digitsPart_taken hdigits other)
  simp [decimal, hwhole, htaken, bind, Except.bind, pure, Except.pure]

/-- The characters that a number covers are this number by themselves. -/
theorem number_taken {kind : TokenKind} {chars : List Char}
    (h : number offset cs = .ok (plain kind offset chars)) (other : Nat) :
    number other chars = .ok (plain kind other chars) := by
  have hhexadecimal : ∀ {zero mark : Char} {rest : List Char},
      hexadecimal offset zero mark rest = .ok (plain kind offset chars) →
      ∃ digits, chars = zero :: mark :: digits ∧
        hexadecimal other zero mark digits = .ok (plain kind other chars) := by
    intro zero mark rest hscan
    unfold hexadecimal at hscan
    dsimp only at hscan
    split at hscan
    next => cases hscan
    next hdigits =>
      obtain ⟨rfl, rfl⟩ := plain_inj (Except.ok.inj hscan)
      exact ⟨_, rfl, by simp [hexadecimal, takeWhile_taken, hdigits]⟩
  unfold number at h
  split at h
  next =>
    obtain ⟨digits, hchars, hscan⟩ := hhexadecimal h
    rw [hchars] at hscan ⊢
    exact hscan
  next =>
    obtain ⟨digits, hchars, hscan⟩ := hhexadecimal h
    rw [hchars] at hscan ⊢
    exact hscan
  next hlower hupper =>
    obtain ⟨more, hmore, hdecimal⟩ := decimal_inversion h
    obtain ⟨rfl, rfl⟩ := plain_inj (Except.ok.inj ((hdecimal offset).symm.trans h))
    obtain ⟨rest, rfl⟩ := hmore
    unfold number
    split
    next digits => exact absurd rfl (hlower (digits ++ rest))
    next digits => exact absurd rfl (hupper (digits ++ rest))
    next => exact decimal_taken h other

theorem startsNumber_append_of (h : startsNumber c cs = true) (rest : List Char) :
    startsNumber c (cs ++ rest) = true := by
  simp only [startsNumber, Bool.or_eq_true, Bool.and_eq_true] at h ⊢
  rcases h with hdigit | ⟨hpoint, hnext⟩
  · exact .inl hdigit
  · cases cs with
    | nil => simp at hnext
    | cons d cs => exact .inr ⟨hpoint, hnext⟩

theorem digitsPart_starts {digits : List Char} (hstart : startsNumber c cs = true)
    (h : digitsPart offset (c :: cs) = .ok digits) :
    ∃ more, digits = c :: more ∧ startsNumber c more = true := by
  unfold digitsPart at h
  by_cases hdigit : Text.isAsciiDigit c = true
  · have hall : ∀ more, startsNumber c more = true := fun more => by simp [startsNumber, hdigit]
    rw [List.takeWhile_cons_of_pos hdigit, List.dropWhile_cons_of_pos hdigit] at h
    dsimp only at h
    split at h
    · split at h
      · cases h
      · exact ⟨_, (Except.ok.inj h).symm, hall _⟩
    · exact ⟨_, (Except.ok.inj h).symm, hall _⟩
  · obtain ⟨rfl, hnext⟩ : c = '.' ∧ cs.head?.any Text.isAsciiDigit = true := by
      simpa [startsNumber, hdigit] using hstart
    cases cs with
    | nil => cases hnext
    | cons d cs =>
      have hd : Text.isAsciiDigit d = true := hnext
      rw [List.takeWhile_cons_of_neg hdigit, List.dropWhile_cons_of_neg hdigit] at h
      simp only [List.takeWhile_cons_of_pos hd, List.dropWhile_cons_of_pos hd] at h
      split at h
      · cases h
      · exact ⟨_, (Except.ok.inj h).symm, by simp [startsNumber, hd]⟩

/-- A number covers the character that it starts with. -/
theorem number_starts {kind : TokenKind} {chars : List Char} (hstart : startsNumber c cs = true)
    (h : number offset (c :: cs) = .ok (plain kind offset chars)) :
    ∃ more, chars = c :: more ∧ startsNumber c more = true := by
  have hhexadecimal : ∀ {mark : Char} {rest : List Char},
      hexadecimal offset '0' mark rest = .ok (plain kind offset chars) →
      ∃ more, chars = '0' :: more ∧ startsNumber '0' more = true := by
    intro mark rest hscan
    unfold hexadecimal at hscan
    dsimp only at hscan
    split at hscan
    · cases hscan
    · obtain ⟨-, rfl⟩ := plain_inj (Except.ok.inj hscan)
      exact ⟨_, rfl, rfl⟩
  unfold number at h
  split at h
  next heq =>
    obtain ⟨rfl, -⟩ := List.cons.inj heq
    exact hhexadecimal h
  next heq =>
    obtain ⟨rfl, -⟩ := List.cons.inj heq
    exact hhexadecimal h
  next =>
    obtain ⟨digits, hdigits, hplain⟩ := exists_of_bind_eq_ok h
    obtain ⟨more, rfl, hmore⟩ := digitsPart_starts hstart hdigits
    obtain ⟨-, rfl⟩ := plain_inj (Except.ok.inj hplain)
    exact ⟨_, List.cons_append, startsNumber_append_of hmore _⟩

end Lexeme

end Formula
