import Formula.Decimal.Text
import Formula.Proofs.Text.Pattern
import Formula.Proofs.Token.Number

/-! # The notation of numbers

A text reads as a number if it matches a regular pattern: perhaps a sign, digits with at most one point
among or around them, and perhaps an exponent.
-/
namespace Formula

namespace Text

theorem foldl_digitValue?_isSome (cs : List Char) (start : Option Nat) :
    (cs.foldl (fun acc c => do return 10 * (← acc) + (← digitValue? c)) start).isSome = true ↔
      start.isSome = true ∧ ∀ c ∈ cs, isDecimalDigit c = true := by
  induction cs generalizing start with
  | nil => simp
  | cons c cs ih =>
    rw [List.foldl_cons, ih, List.forall_mem_cons, ← and_assoc]
    refine and_congr_left fun _ => ?_
    rw [isDecimalDigit]
    cases start <;> cases digitValue? c <;> simp [bind, pure]

/-- Digits stand for a number, if there is one at least. -/
theorem digitsValue?_isSome_iff {cs : List Char} :
    (digitsValue? cs).isSome = true ↔ cs ≠ [] ∧ ∀ c ∈ cs, isDecimalDigit c = true := by
  cases cs with
  | nil => simp [digitsValue?]
  | cons c cs =>
    have hfold := foldl_digitValue?_isSome (c :: cs) (some 0)
    rw [digitsValue?, hfold]
    simp
    nofun

end Text

namespace Decimal

open Text.Pattern

def digitPattern : Text.Pattern := .one Text.isDecimalDigit

def signPattern : Text.Pattern := optional (anyOf "+-")

def exponentPattern : Text.Pattern :=
  optional (sequence [anyOf "eE", signPattern, Text.Pattern.some digitPattern])

def digitsPattern : Text.Pattern :=
  choice
    [sequence [Text.Pattern.some digitPattern, optional (char '.'), many digitPattern],
     sequence [char '.', Text.Pattern.some digitPattern]]

def unsignedPattern : Text.Pattern := sequence [digitsPattern, exponentPattern]

def numberPattern : Text.Pattern := sequence [signPattern, unsignedPattern]

variable {c : Char} {cs whole fraction tail : List Char}

theorem cons_mem_mark {set : String} {language : Language Char} :
    c :: cs ∈ (anyOf set).language * language ↔ c ∈ set.toList ∧ cs ∈ language := by
  rw [cons_mem_mul]
  simp

/-- A sign may stand in front. -/
theorem cons_mem_sign {language : Language Char} :
    c :: cs ∈ signPattern.language * language ↔
      (c = '+' ∨ c = '-') ∧ cs ∈ language ∨ c :: cs ∈ language := by
  have hset : "+-".toList = ['+', '-'] := rfl
  rw [cons_mem_mul, signPattern]
  simp [hset, ← or_and_right]

theorem nil_mem_sign {language : Language Char} : [] ∈ signPattern.language * language ↔ [] ∈ language := by
  simp [nil_mem_mul, signPattern]

theorem mem_digits : cs ∈ (Text.Pattern.some digitPattern).language ↔ (Text.digitsValue? cs).isSome = true := by
  rw [digitPattern, mem_language_some_one, Text.digitsValue?_isSome_iff]

theorem digitsValue?_of_not_digit (h : Text.isDecimalDigit c = false) (cs : List Char) :
    Text.digitsValue? (c :: cs) = none := by
  rw [← Option.not_isSome_iff_eq_none, Text.digitsValue?_isSome_iff]
  simp [h]

/-- A marker makes an exponent of digits, perhaps with a sign before them. -/
theorem exponentOf?_marked (hmark : c = 'e' ∨ c = 'E') (cs : List Char) :
    (exponentOf? (c :: cs)).isSome = true ↔
      (∃ sign ds, cs = sign :: ds ∧ (sign = '+' ∨ sign = '-') ∧ (Text.digitsValue? ds).isSome = true) ∨
        (Text.digitsValue? cs).isSome = true := by
  have hplus := digitsValue?_of_not_digit (c := '+') (by decide)
  have hminus := digitsValue?_of_not_digit (c := '-') (by decide)
  have hmapped (f : Nat → Int) (ds : List Char) : ((Text.digitsValue? ds).bind fun n => some (f n)).isSome =
      (Text.digitsValue? ds).isSome := by cases Text.digitsValue? ds <;> rfl
  obtain ⟨rest, hrest, heq⟩ : ∃ rest, rest = cs ∧ exponentOf? (c :: cs) = exponentOf? ('e' :: rest) := by
    rcases hmark with rfl | rfl
    · exact ⟨cs, rfl, rfl⟩
    · exact ⟨cs, rfl, rfl⟩
  rw [heq, ← hrest]
  clear hrest heq
  cases rest with
  | nil => simp [exponentOf?, Text.digitsValue?]
  | cons sign ds =>
    simp only [exponentOf?]
    split
    next heq =>
      obtain ⟨rfl, rfl⟩ := List.cons.inj heq
      simp [hminus, hmapped]
    next heq =>
      obtain ⟨rfl, rfl⟩ := List.cons.inj heq
      simp [hplus, hmapped]
    next hnotMinus hnotPlus =>
      have hsign : ¬ (sign = '+' ∨ sign = '-') := by
        rintro (rfl | rfl)
        · exact hnotPlus ds rfl
        · exact hnotMinus ds rfl
      simp [hsign, hmapped]

theorem exponentOf?_unmarked (hmark : ¬ (c = 'e' ∨ c = 'E')) (cs : List Char) :
    exponentOf? (c :: cs) = none := by
  rw [not_or] at hmark
  unfold exponentOf?
  split <;> simp_all

theorem exponentOf?_isSome_iff : (exponentOf? cs).isSome = true ↔ cs ∈ exponentPattern.language := by
  have hset : "eE".toList = ['e', 'E'] := rfl
  cases cs with
  | nil => simp [exponentOf?, exponentPattern]
  | cons mark rest =>
    have hmarked : mark :: rest ∈ exponentPattern.language ↔ (mark = 'e' ∨ mark = 'E') ∧
        rest ∈ signPattern.language * (Text.Pattern.some digitPattern).language := by
      simp [exponentPattern, cons_mem_mark, hset]
    rw [hmarked]
    by_cases hmark : mark = 'e' ∨ mark = 'E'
    · rw [exponentOf?_marked hmark, and_iff_right hmark]
      cases rest with
      | nil => simp [nil_mem_sign, mem_digits]
      | cons sign ds => simp [cons_mem_sign, mem_digits]
    · simp [exponentOf?_unmarked hmark, hmark]

/-- An exponent part begins with its marker. -/
theorem head_of_exponent (h : cs ∈ exponentPattern.language) : ∀ c ∈ cs.head?, c = 'e' ∨ c = 'E' := by
  rintro c hc
  by_contra hmark
  cases cs with
  | nil => cases hc
  | cons d ds =>
    obtain rfl : d = c := by simpa using hc
    rw [← exponentOf?_isSome_iff, exponentOf?_unmarked hmark] at h
    cases h

theorem point_not_digit : Text.isDecimalDigit '.' = false := by decide

section Unsigned

variable (hwhole : ∀ c ∈ whole, Text.isDecimalDigit c = true)
  (htail : ∀ c ∈ tail.head?, Text.isDecimalDigit c = false)

include hwhole htail in
theorem unsignedOf?_append (hpoint : ∀ c ∈ tail.head?, c ≠ '.') :
    unsignedOf? (whole ++ tail) =
      (Text.digitsValue? whole).bind fun coefficient =>
        (exponentOf? tail).map fun exponent => ⟨false, coefficient, exponent⟩ := by
  unfold unsignedOf?
  rw [Lexeme.takeWhile_exact hwhole htail, Lexeme.dropWhile_exact hwhole htail]
  dsimp only
  split
  next => exact absurd rfl (hpoint _ rfl)
  next =>
    rw [List.append_nil]
    cases Text.digitsValue? whole <;> cases exponentOf? tail <;> simp

include hwhole htail in
theorem unsignedOf?_append_point (hfraction : ∀ c ∈ fraction, Text.isDecimalDigit c = true) :
    unsignedOf? (whole ++ '.' :: (fraction ++ tail)) =
      (Text.digitsValue? (whole ++ fraction)).bind fun coefficient =>
        (exponentOf? tail).map fun exponent => ⟨false, coefficient, exponent - fraction.length⟩ := by
  have hpoint : ∀ c ∈ ('.' :: (fraction ++ tail)).head?, Text.isDecimalDigit c = false := by
    rintro _ ⟨⟩
    exact point_not_digit
  unfold unsignedOf?
  rw [Lexeme.takeWhile_exact hwhole hpoint, Lexeme.dropWhile_exact hwhole hpoint]
  simp only [Lexeme.takeWhile_exact hfraction htail, Lexeme.dropWhile_exact hfraction htail]
  cases Text.digitsValue? (whole ++ fraction) <;> cases exponentOf? tail <;> rfl

include hwhole htail in
/-- Digits without a point. -/
theorem unsignedOf?_whole (hpoint : ∀ c ∈ tail.head?, c ≠ '.') :
    (unsignedOf? (whole ++ tail)).isSome = true ↔ whole ≠ [] ∧ (exponentOf? tail).isSome = true := by
  have hdigits : (Text.digitsValue? whole).isSome = true ↔ whole ≠ [] := by
    rw [Text.digitsValue?_isSome_iff, and_iff_left hwhole]
  rw [unsignedOf?_append hwhole htail hpoint, ← hdigits]
  cases Text.digitsValue? whole <;> simp

include hwhole htail in
/-- Digits with a point. -/
theorem unsignedOf?_pointed (hfraction : ∀ c ∈ fraction, Text.isDecimalDigit c = true) :
    (unsignedOf? (whole ++ '.' :: (fraction ++ tail))).isSome = true ↔
      whole ++ fraction ≠ [] ∧ (exponentOf? tail).isSome = true := by
  have hall : ∀ c ∈ whole ++ fraction, Text.isDecimalDigit c = true :=
    List.forall_mem_append.mpr ⟨hwhole, hfraction⟩
  have hdigits : (Text.digitsValue? (whole ++ fraction)).isSome = true ↔ whole ++ fraction ≠ [] := by
    rw [Text.digitsValue?_isSome_iff, and_iff_left hall]
  rw [unsignedOf?_append_point hwhole htail hfraction, ← hdigits]
  cases Text.digitsValue? (whole ++ fraction) <;> simp

end Unsigned

inductive LeadingDigits (digit : Char → Bool) : List Char → Prop
  | whole {whole tail : List Char} (hwhole : ∀ c ∈ whole, digit c = true)
      (htail : ∀ c ∈ tail.head?, digit c = false) (hpoint : ∀ c ∈ tail.head?, c ≠ '.') :
      LeadingDigits digit (whole ++ tail)
  | pointed {whole fraction tail : List Char} (hwhole : ∀ c ∈ whole, digit c = true)
      (hfraction : ∀ c ∈ fraction, digit c = true) (htail : ∀ c ∈ tail.head?, digit c = false) :
      LeadingDigits digit (whole ++ '.' :: (fraction ++ tail))

theorem leadingDigits (digit : Char → Bool) (cs : List Char) : LeadingDigits digit cs := by
  have hdropped (cs : List Char) : ∀ c ∈ (cs.dropWhile digit).head?, digit c = false := by
    intro c hc
    have hhead := List.head?_dropWhile_not digit cs
    rw [Option.mem_def.mp hc] at hhead
    simpa using hhead
  have hsplit : cs.takeWhile digit ++ cs.dropWhile digit = cs := List.takeWhile_append_dropWhile
  have hwhole := Lexeme.forall_mem_takeWhile digit cs
  have htail := hdropped cs
  by_cases hpoint : ∀ c ∈ (cs.dropWhile digit).head?, c ≠ '.'
  · rw [← hsplit]
    exact .whole hwhole htail hpoint
  · obtain ⟨more, hmore⟩ : ∃ more, cs.dropWhile digit = '.' :: more := by
      cases hrest : cs.dropWhile digit with
      | nil => simp [hrest] at hpoint
      | cons d more =>
        obtain rfl : d = '.' := by simpa [hrest] using hpoint
        exact ⟨more, rfl⟩
    have hmoreSplit : more.takeWhile digit ++ more.dropWhile digit = more :=
      List.takeWhile_append_dropWhile
    rw [← hsplit, hmore, ← hmoreSplit]
    exact .pointed hwhole (Lexeme.forall_mem_takeWhile digit more) (hdropped more)

theorem mem_many_digit : cs ∈ (many digitPattern).language ↔ ∀ c ∈ cs, Text.isDecimalDigit c = true :=
  mem_language_many_one

theorem mem_some_digit :
    cs ∈ (Text.Pattern.some digitPattern).language ↔ cs ≠ [] ∧ ∀ c ∈ cs, Text.isDecimalDigit c = true :=
  mem_language_some_one

/-- The digits of a number: no point or one, and a digit somewhere. -/
theorem mem_digitsPattern :
    cs ∈ digitsPattern.language ↔
      (cs ≠ [] ∧ ∀ c ∈ cs, Text.isDecimalDigit c = true) ∨
        ∃ whole fraction, cs = whole ++ '.' :: fraction ∧ whole ++ fraction ≠ [] ∧
          (∀ c ∈ whole, Text.isDecimalDigit c = true) ∧ ∀ c ∈ fraction, Text.isDecimalDigit c = true := by
  rw [digitsPattern, mem_language_choice_cons, mem_language_choice_cons]
  simp only [language_sequence_cons, language_sequence_nil, mul_one, language_choice_nil, Language.mem_mul,
    mem_some_digit, mem_many_digit, mem_language_optional, mem_language_char, exists_eq_or_imp,
    exists_eq_left]
  constructor
  · rintro (⟨whole, ⟨hnonempty, hwhole⟩, _, ⟨fraction, hfraction, rfl⟩ | ⟨fraction, hfraction, rfl⟩, rfl⟩ |
      ⟨fraction, ⟨hnonempty, hfraction⟩, rfl⟩ | hnone)
    · exact .inl ⟨by simp [hnonempty], List.forall_mem_append.mpr ⟨hwhole, hfraction⟩⟩
    · exact .inr ⟨whole, fraction, rfl, by simp [hnonempty], hwhole, hfraction⟩
    · exact .inr ⟨[], fraction, rfl, hnonempty, List.forall_mem_nil _, hfraction⟩
    · exact absurd hnone (Language.notMem_zero _)
  · rintro (⟨hnonempty, hwhole⟩ | ⟨whole, fraction, rfl, hnonempty, hwhole, hfraction⟩)
    · exact .inl ⟨cs, ⟨hnonempty, hwhole⟩, [], .inl ⟨[], List.forall_mem_nil _, rfl⟩, by simp⟩
    · cases whole with
      | nil => exact .inr (.inl ⟨fraction, ⟨hnonempty, hfraction⟩, rfl⟩)
      | cons c whole =>
        exact .inl ⟨c :: whole, ⟨List.cons_ne_nil c whole, hwhole⟩, _, .inr ⟨fraction, hfraction, rfl⟩, rfl⟩

theorem unsignedOf?_isSome_iff : (unsignedOf? cs).isSome = true ↔ cs ∈ unsignedPattern.language := by
  have hunsigned : cs ∈ unsignedPattern.language ↔
      ∃ digits ∈ digitsPattern.language, ∃ tail ∈ exponentPattern.language, digits ++ tail = cs := by
    simp [unsignedPattern, Language.mem_mul]
  rw [hunsigned]
  constructor
  · intro h
    cases leadingDigits Text.isDecimalDigit cs with
    | whole hwhole htail hpoint =>
      obtain ⟨hnonempty, hexponent⟩ := (unsignedOf?_whole hwhole htail hpoint).mp h
      exact ⟨_, mem_digitsPattern.mpr (.inl ⟨hnonempty, hwhole⟩), _, exponentOf?_isSome_iff.mp hexponent, rfl⟩
    | pointed hwhole hfraction htail =>
      obtain ⟨hnonempty, hexponent⟩ := (unsignedOf?_pointed hwhole htail hfraction).mp h
      refine ⟨_, mem_digitsPattern.mpr (.inr ⟨_, _, rfl, hnonempty, hwhole, hfraction⟩), _,
        exponentOf?_isSome_iff.mp hexponent, ?_⟩
      simp
  · rintro ⟨digits, hdigits, tail, hexponent, rfl⟩
    have hmark := head_of_exponent hexponent
    have htail : ∀ c ∈ tail.head?, Text.isDecimalDigit c = false := by
      intro c hc
      rcases hmark c hc with rfl | rfl <;> decide
    have hpoint : ∀ c ∈ tail.head?, c ≠ '.' := by
      intro c hc
      rcases hmark c hc with rfl | rfl <;> decide
    rw [← exponentOf?_isSome_iff] at hexponent
    rcases mem_digitsPattern.mp hdigits with
      ⟨hnonempty, hwhole⟩ | ⟨whole, fraction, rfl, hnonempty, hwhole, hfraction⟩
    · exact (unsignedOf?_whole hwhole htail hpoint).mpr ⟨hnonempty, hexponent⟩
    · rw [List.append_assoc, List.cons_append]
      exact (unsignedOf?_pointed hwhole htail hfraction).mpr ⟨hnonempty, hexponent⟩

theorem unsignedOf?_of_sign (hsign : c = '+' ∨ c = '-') (cs : List Char) : unsignedOf? (c :: cs) = none := by
  have hdigit : Text.isDecimalDigit c = false := by rcases hsign with rfl | rfl <;> decide
  have hpoint : c ≠ '.' := by rcases hsign with rfl | rfl <;> decide
  have hwhole : ∀ c ∈ ([] : List Char), Text.isDecimalDigit c = true := nofun
  rw [← Option.not_isSome_iff_eq_none, ← List.nil_append (c :: cs),
    unsignedOf?_whole hwhole (by simpa using hdigit) (by simpa using hpoint)]
  simp

/-- The texts that are read as numbers are those that match the pattern. -/
theorem ofText?_isSome_iff (text : String) :
    (ofText? text).isSome = true ↔ numberPattern.accepts text.toList = true := by
  have hnumber : numberPattern.language = signPattern.language * unsignedPattern.language := by
    simp [numberPattern]
  rw [ofText?, accepts_iff, hnumber]
  cases text.toList with
  | nil =>
    rw [nil_mem_sign, ← unsignedOf?_isSome_iff]
    rfl
  | cons c cs =>
    rw [cons_mem_sign, ← unsignedOf?_isSome_iff, ← unsignedOf?_isSome_iff]
    unfold ofChars?
    split
    next heq =>
      obtain ⟨rfl, rfl⟩ := List.cons.inj heq
      simp [unsignedOf?_of_sign]
    next heq =>
      obtain ⟨rfl, rfl⟩ := List.cons.inj heq
      simp [unsignedOf?_of_sign]
    next hminus hplus =>
      have hsign : ¬ (c = '+' ∨ c = '-') := by
        rintro (rfl | rfl)
        · exact hplus cs rfl
        · exact hminus cs rfl
      simp [hsign]

end Decimal
end Formula
