import Formula.Token.Scan

/-! # Classes of characters

Which class of characters a token starts with, and where it stops. The classes that begin a token do
not meet, and what separates tokens continues none of them.
-/
namespace Formula

namespace Text

variable {c : Char}

theorem toNat_of_isAsciiDigit (h : isAsciiDigit c = true) : 48 ≤ c.toNat ∧ c.toNat ≤ 57 := by
  simp only [isAsciiDigit, Bool.and_eq_true, decide_eq_true_eq, Char.le_def, UInt32.le_iff_toNat_le] at h
  exact h

theorem isAlphanumeric_of_isAsciiDigit (h : isAsciiDigit c = true) : isAlphanumeric c = true := by
  have hrange := toNat_of_isAsciiDigit h
  have hascii : c.toNat < 128 := by omega
  simp [isAlphanumeric, isNumeral, hascii, h]

theorem isLetter_of_isAsciiDigit (h : isAsciiDigit c = true) : isLetter c = false := by
  obtain ⟨hlow, hhigh⟩ := toNat_of_isAsciiDigit h
  have hascii : c.toNat < 128 := by omega
  unfold isLetter
  rw [if_pos hascii]
  simp only [isAsciiLetter, Bool.or_eq_false_iff, Bool.and_eq_false_iff, decide_eq_false_iff_not,
    Char.le_def, UInt32.le_iff_toNat_le]
  change (¬ 97 ≤ c.toNat ∨ _) ∧ (¬ 65 ≤ c.toNat ∨ _)
  constructor
  · exact .inl (by omega)
  · exact .inl (by omega)

theorem not_alphanumeric_of_isBlank (h : isBlank c = true) : isAlphanumeric c = false := by
  have hall : ∀ n ∈ blanks, isAlphanumeric (Char.ofNat n) = false := by decide +kernel
  have hmem : c.toNat ∈ blanks := List.contains_iff_mem.mp h
  simpa [Char.ofNat_toNat] using hall c.toNat hmem

end Text

namespace Lexeme

variable {c : Char} {cs : List Char}

theorem isAlphanumeric_of_isNameStart (h : Registry.isNameStart c = true) :
    Text.isAlphanumeric c = true ∨ c = '_' := by
  unfold Registry.isNameStart at h
  unfold Text.isAlphanumeric
  simp only [Bool.or_eq_true, beq_iff_eq] at h ⊢
  exact h.imp_left .inl

theorem not_blank_of_isNameStart (h : Registry.isNameStart c = true) : Text.isBlank c = false := by
  rw [Bool.eq_false_iff]
  intro hblank
  rcases isAlphanumeric_of_isNameStart h with hc | rfl
  · simp [Text.not_alphanumeric_of_isBlank hblank] at hc
  · revert hblank
    decide

theorem not_startsNumber_of_isNameStart (h : Registry.isNameStart c = true) (cs : List Char) :
    startsNumber c cs = false := by
  have hdigit : Text.isAsciiDigit c = false := by
    rw [Bool.eq_false_iff]
    intro hdigit
    have hunderscore : c = '_' := by
      simpa [Registry.isNameStart, Text.isLetter_of_isAsciiDigit hdigit] using h
    subst hunderscore
    revert hdigit
    decide
  have hpoint : c ≠ '.' := by
    rintro rfl
    revert h
    decide
  simp [startsNumber, hdigit, hpoint]

/-- What the symbols of operators keep clear of. -/
theorem isSymbolChar_iff : Registry.isSymbolChar c = true ↔
    Text.isAlphanumeric c = false ∧ c ≠ '_' ∧ Text.isBlank c = false ∧ c ≠ '(' ∧ c ≠ ')' ∧ c ≠ ',' ∧
      c ≠ '\'' := by
  simp [Registry.isSymbolChar, and_assoc]

theorem not_startsNumber_of_isSymbolChar (h : Registry.isSymbolChar c = true)
    (hcs : ∀ d ∈ cs.head?, Text.isAsciiDigit d = false) : startsNumber c cs = false := by
  have hdigit : Text.isAsciiDigit c = false := by
    rw [Bool.eq_false_iff]
    intro hdigit
    have halphanumeric := Text.isAlphanumeric_of_isAsciiDigit hdigit
    simp [(isSymbolChar_iff.mp h).1] at halphanumeric
  have hhead : cs.head?.any Text.isAsciiDigit = false := by
    cases hcs' : cs.head? with
    | none => rfl
    | some d => simpa using hcs d hcs'
  simp [startsNumber, hdigit, hhead]

theorem not_blank_of_startsNumber (h : startsNumber c cs = true) : Text.isBlank c = false := by
  rw [Bool.eq_false_iff]
  intro hblank
  simp only [startsNumber, Bool.or_eq_true, Bool.and_eq_true, beq_iff_eq] at h
  rcases h with hdigit | ⟨rfl, -⟩
  · have halphanumeric := Text.isAlphanumeric_of_isAsciiDigit hdigit
    simp [Text.not_alphanumeric_of_isBlank hblank] at halphanumeric
  · revert hblank
    decide

def isSeparator (c : Char) : Bool := c == ' ' || c == '(' || c == ')' || c == ','

theorem isSeparator_iff : isSeparator c = true ↔ c = ' ' ∨ c = '(' ∨ c = ')' ∨ c = ',' := by
  simp [isSeparator, or_assoc]

/-- A separator is in none of the classes that tokens are made of. -/
theorem not_mem_of_isSeparator (h : isSeparator c = true) :
    Registry.isNameChar c = false ∧ Registry.isSymbolChar c = false ∧ isHexDigit c = false ∧
      Text.isAsciiDigit c = false ∧
        c ∉ ['.', 'e', 'E', '+', '-', 'x', 'X', '\''] := by
  rcases isSeparator_iff.mp h with rfl | rfl | rfl | rfl <;> decide +kernel

end Lexeme

end Formula
