import Formula.Proofs.Decimal.Notation
import Formula.Proofs.Token.Layout
import Mathlib.Data.List.TakeWhile

/-! # Texts that are one number

An ASCII text is scanned as one number exactly if it reads as a number without a sign.
-/
namespace Formula

namespace Text

variable {c : Char} {cs : List Char}

theorem isDecimalDigit_of_ascii (h : c.toNat < 128) : isDecimalDigit c = isAsciiDigit c := by
  rw [isDecimalDigit, digitValue?, if_pos h]
  split <;> simp_all

end Text

namespace Lexeme

open Decimal (exponentOf? unsignedOf? LeadingDigits)

variable {c : Char} {cs whole fraction tail : List Char}

/-- What stands before digits is taken with all of them, if there are any. -/
theorem guarded_takeWhile_eq (p : Char → Bool) {front : List Char} (hfront : front ≠ []) (ds : List Char) :
    (if (ds.takeWhile p).isEmpty then [] else front ++ ds.takeWhile p) = front ++ ds ↔
      ds ≠ [] ∧ ∀ c ∈ ds, p c = true := by
  rw [← List.takeWhile_eq_self_iff]
  split
  next hempty =>
    have hnone := List.isEmpty_iff.mp hempty
    rw [hnone]
    constructor
    · intro h
      exact absurd (List.append_eq_nil_iff.mp h.symm).1 hfront
    · rintro ⟨hnonempty, h⟩
      exact absurd h.symm hnonempty
  next htaken =>
    rw [List.append_cancel_left_eq, iff_and_self]
    rintro h rfl
    exact htaken rfl

/-- An exponent part that covers all characters. -/
theorem exponentPart_eq_self_iff (hascii : ∀ c ∈ cs, c.toNat < 128) :
    exponentPart cs = cs ↔ (exponentOf? cs).isSome = true := by
  have hdigits (ds : List Char) (hds : ∀ c ∈ ds, c.toNat < 128) :
      (Text.digitsValue? ds).isSome = true ↔ ds ≠ [] ∧ ∀ c ∈ ds, Text.isAsciiDigit c = true := by
    rw [Text.digitsValue?_isSome_iff]
    refine and_congr_right fun _ => forall₂_congr fun c hc => ?_
    rw [Text.isDecimalDigit_of_ascii (hds c hc)]
  cases cs with
  | nil => simp [exponentPart, exponentOf?]
  | cons mark rest =>
    obtain ⟨-, hrest⟩ := List.forall_mem_cons.mp hascii
    by_cases hmark : mark = 'e' ∨ mark = 'E'
    · rw [Decimal.exponentOf?_marked hmark, hdigits rest hrest]
      cases rest with
      | nil => simp [exponentPart]
      | cons sign ds =>
        obtain ⟨-, hds⟩ := List.forall_mem_cons.mp hrest
        unfold exponentPart
        dsimp only
        rw [if_pos hmark]
        by_cases hsign : sign = '+' ∨ sign = '-'
        · have hnone : Text.isAsciiDigit sign = false := by rcases hsign with rfl | rfl <;> decide
          have htaken := guarded_takeWhile_eq Text.isAsciiDigit (List.cons_ne_nil mark [sign]) ds
          rw [if_pos hsign]
          simpa [hsign, hnone, hdigits ds hds] using htaken
        · have htaken := guarded_takeWhile_eq Text.isAsciiDigit (List.cons_ne_nil mark []) (sign :: ds)
          rw [if_neg hsign]
          simpa [hsign] using htaken
    · simp [exponentPart, Decimal.exponentOf?_unmarked hmark, hmark]

section Parts

variable (hwhole : ∀ c ∈ whole, Text.isAsciiDigit c = true)
  (htail : ∀ c ∈ tail.head?, Text.isAsciiDigit c = false) (hpoint : ∀ c ∈ tail.head?, c ≠ '.')

include hwhole htail hpoint in
theorem digitsPart_whole (offset : Nat) : digitsPart offset (whole ++ tail) = .ok whole := by
  unfold digitsPart
  rw [takeWhile_exact hwhole htail, dropWhile_exact hwhole htail]
  dsimp only
  split
  next => exact absurd rfl (hpoint _ rfl)
  next => rfl

include hwhole htail in
theorem digitsPart_pointed (hfraction : ∀ c ∈ fraction, Text.isAsciiDigit c = true) (offset : Nat) :
    digitsPart offset (whole ++ '.' :: (fraction ++ tail)) =
      if tail.head? = some '.' then
        .error (.at (.malformedNumber (String.ofList (whole ++ '.' :: fraction ++ ['.']))) offset)
      else .ok (whole ++ '.' :: fraction) := by
  have hdot : ∀ c ∈ ('.' :: (fraction ++ tail)).head?, Text.isAsciiDigit c = false := by
    rintro _ ⟨⟩
    decide
  unfold digitsPart
  rw [takeWhile_exact hwhole hdot, dropWhile_exact hwhole hdot]
  simp only [takeWhile_exact hfraction htail, dropWhile_exact hfraction htail]
  split
  next => rfl
  next hdot =>
    rw [if_neg]
    intro hhead
    cases tail with
    | nil => cases hhead
    | cons d more =>
      obtain rfl := Option.some.inj hhead
      exact hdot more rfl

include hwhole htail hpoint in
theorem startsNumber_whole (hchars : c :: cs = whole ++ tail) : startsNumber c cs = true ↔ whole ≠ [] := by
  cases whole with
  | nil =>
    obtain rfl : c :: cs = tail := hchars
    have hdigit := htail c rfl
    have hdot := hpoint c rfl
    simp [startsNumber, hdigit, hdot]
  | cons d whole =>
    obtain ⟨rfl, -⟩ := List.cons.inj hchars
    simp [startsNumber, hwhole c List.mem_cons_self]

include hwhole htail in
theorem startsNumber_pointed (hfraction : ∀ c ∈ fraction, Text.isAsciiDigit c = true)
    (hchars : c :: cs = whole ++ '.' :: (fraction ++ tail)) :
    startsNumber c cs = true ↔ whole ++ fraction ≠ [] := by
  have hdot : Text.isAsciiDigit '.' = false := by decide
  cases whole with
  | cons d whole =>
    obtain ⟨rfl, -⟩ := List.cons.inj hchars
    simp [startsNumber, hwhole c List.mem_cons_self]
  | nil =>
    obtain ⟨rfl, rfl⟩ := List.cons.inj hchars
    cases fraction with
    | nil => simpa [startsNumber, hdot, Option.any_eq_false] using htail
    | cons d fraction => simp [startsNumber, hfraction d List.mem_cons_self]

end Parts

/-- A number that covers all characters has digits, and an exponent that covers the rest. -/
theorem decimal_eq_plain_iff {digits : List Char} {offset : Nat}
    (hdigits : digitsPart offset (digits ++ tail) = .ok digits) (htail : ∀ c ∈ tail, c.toNat < 128) :
    decimal offset (digits ++ tail) = .ok (plain .number offset (digits ++ tail)) ↔
      (exponentOf? tail).isSome = true := by
  have hplain : decimal offset (digits ++ tail) = .ok (plain .number offset (digits ++ exponentPart tail)) := by
    simp [decimal, hdigits, bind, Except.bind, pure, Except.pure]
  rw [hplain, ← exponentPart_eq_self_iff htail]
  constructor
  · intro h
    exact List.append_cancel_left (plain_inj (Except.ok.inj h)).2
  · intro h
    rw [h]

/-- Digits from their start to the end of the text are an unsigned number. -/
theorem decimal_whole_iff (hascii : ∀ d ∈ c :: cs, d.toNat < 128) (offset : Nat) :
    startsNumber c cs = true ∧ decimal offset (c :: cs) = .ok (plain .number offset (c :: cs)) ↔
      (unsignedOf? (c :: cs)).isSome = true := by
  have hdigit (d : Char) (hd : d ∈ c :: cs) : Text.isDecimalDigit d = Text.isAsciiDigit d :=
    Text.isDecimalDigit_of_ascii (hascii d hd)
  generalize hchars : c :: cs = chars at hascii hdigit
  cases Decimal.leadingDigits Text.isAsciiDigit chars with
  | @whole whole tail hwhole htail hpoint =>
    obtain ⟨-, hrest⟩ := List.forall_mem_append.mp hascii
    have hunsigned : (unsignedOf? (whole ++ tail)).isSome = true ↔ _ :=
      Decimal.unsignedOf?_whole (fun d hd => by rw [hdigit d (by simp [hd]), hwhole d hd])
        (fun d hd => by rw [hdigit d (by simp [List.mem_of_mem_head? hd]), htail d hd]) hpoint
    rw [hunsigned, startsNumber_whole hwhole htail hpoint hchars,
      decimal_eq_plain_iff (digitsPart_whole hwhole htail hpoint offset) hrest]
  | @pointed whole fraction tail hwhole hfraction htail =>
    have hunsigned : (unsignedOf? (whole ++ '.' :: (fraction ++ tail))).isSome = true ↔ _ :=
      Decimal.unsignedOf?_pointed (fun d hd => by rw [hdigit d (by simp [hd]), hwhole d hd])
        (fun d hd => by rw [hdigit d (by simp [List.mem_of_mem_head? hd]), htail d hd])
        (fun d hd => by rw [hdigit d (by simp [hd]), hfraction d hd])
    rw [hunsigned, startsNumber_pointed hwhole htail hfraction hchars]
    refine and_congr_right fun _ => ?_
    have hdigits := digitsPart_pointed hwhole htail hfraction offset
    by_cases hdot : tail.head? = some '.'
    · obtain ⟨more, rfl⟩ : ∃ more, tail = '.' :: more := by
        cases tail with
        | nil => cases hdot
        | cons d more => exact ⟨more, by rw [Option.some.inj hdot]⟩
      rw [if_pos hdot] at hdigits
      simp [decimal, hdigits, bind, Except.bind, Decimal.exponentOf?_unmarked]
    · have happend : whole ++ '.' :: (fraction ++ tail) = whole ++ '.' :: fraction ++ tail := by simp
      rw [if_neg hdot, happend] at hdigits
      rw [happend, decimal_eq_plain_iff hdigits fun d hd => hascii d (by simp [hd])]

/-- A text that is a hexadecimal number reads as no decimal one. -/
theorem unsignedOf?_hexadecimal {mark : Char} (hmark : mark = 'x' ∨ mark = 'X') (cs : List Char) :
    unsignedOf? ('0' :: mark :: cs) = none := by
  have hwhole : ∀ d ∈ ['0'], Text.isDecimalDigit d = true := List.forall_mem_singleton.mpr rfl
  have hdigit : ∀ d ∈ (mark :: cs).head?, Text.isDecimalDigit d = false := by
    rintro d hd
    obtain rfl : mark = d := by simpa using hd
    rcases hmark with rfl | rfl <;> decide
  have hpoint : ∀ d ∈ (mark :: cs).head?, d ≠ '.' := by
    rintro d hd
    obtain rfl : mark = d := by simpa using hd
    rcases hmark with rfl | rfl <;> decide
  have hexponent : ¬ (mark = 'e' ∨ mark = 'E') := by rcases hmark with rfl | rfl <;> decide
  have hwholeIff := Decimal.unsignedOf?_whole hwhole hdigit hpoint
  rw [Decimal.exponentOf?_unmarked hexponent] at hwholeIff
  rw [← Option.not_isSome_iff_eq_none]
  simpa using hwholeIff

/-- A text that covers itself as a number is an unsigned number. -/
theorem number_whole_iff (hascii : ∀ d ∈ c :: cs, d.toNat < 128) (offset : Nat) :
    startsNumber c cs = true ∧ number offset (c :: cs) = .ok (plain .number offset (c :: cs)) ↔
      (unsignedOf? (c :: cs)).isSome = true := by
  have hdecimal := decimal_whole_iff hascii offset
  have hother {mark : Char} (hmark : mark = 'x' ∨ mark = 'X') {rest : List Char}
      (heq : c :: cs = '0' :: mark :: rest) :
      startsNumber c cs = true ∧
          hexadecimal offset '0' mark rest = .ok (plain .number offset (c :: cs)) ↔
        (unsignedOf? (c :: cs)).isSome = true := by
    have hnone : (unsignedOf? (c :: cs)).isSome = false := by rw [heq, unsignedOf?_hexadecimal hmark]; rfl
    rw [hnone]
    constructor
    · rintro ⟨-, hscan⟩
      cases hexadecimal_kind hscan
    · nofun
  unfold number
  split
  next heq => exact hother (.inl rfl) heq
  next heq => exact hother (.inr rfl) heq
  next => exact hdecimal

end Lexeme

variable {registry : Registry} {text : String}

/-- A text is scanned as one number if it reads as an unsigned number. -/
theorem tokenize_number (hascii : ∀ c ∈ text.toList, c.toNat < 128)
    (h : (Decimal.unsignedOf? text.toList).isSome = true) :
    tokenize registry text = .ok [⟨.number, text, 0⟩] := by
  cases hchars : text.toList with
  | nil =>
    rw [hchars] at h
    cases h
  | cons c cs =>
    rw [hchars] at h hascii
    have hnumber (offset : Nat) := (Lexeme.number_whole_iff hascii offset).mpr h
    have hscans : Lexeme.Scans registry (([] : List Lexeme).head?.map (·.token.kind)) ⟨.number, text, 0⟩
        text.toList [] :=
      Lexeme.scans_number hchars (hnumber 0).1 (fun offset => (hnumber offset).2) Lexeme.separated_nil
    have hscan := hscans.scanFrom_append
    rw [List.append_nil] at hscan
    rw [tokenize, scanText, hscan]
    rfl

/-- A text is scanned as one number exactly if it reads as an unsigned number. -/
theorem tokenize_number_iff (hascii : ∀ c ∈ text.toList, c.toNat < 128) :
    (∃ offset, tokenize registry text = .ok [⟨.number, text, offset⟩]) ↔
      (Decimal.unsignedOf? text.toList).isSome = true := by
  constructor
  · rintro ⟨offset, htokens⟩
    obtain ⟨lexemes, hlexemes, hlaid⟩ := laid_of_tokenize htokens
    obtain ⟨lexeme, rfl, htoken⟩ := List.map_eq_singleton_iff.mp hlexemes
    obtain ⟨_, _, _, _, _, _, hcovers⟩ := hlaid.covers lexeme List.mem_cons_self
    have hscannable := hcovers.scannable
    rw [htoken] at hscannable
    obtain ⟨c, cs, hchars, hstart, hnumber⟩ := hscannable
    rw [hchars] at hascii ⊢
    exact (Lexeme.number_whole_iff hascii 0).mp ⟨hstart, hnumber 0⟩
  · intro h
    exact ⟨0, tokenize_number hascii h⟩

end Formula
