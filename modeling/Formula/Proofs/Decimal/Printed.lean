import Formula.Proofs.Decimal.Digits
import Formula.Proofs.Decimal.Notation

/-! # Printed decimals

The text of a decimal reads back as the decimal, in the positional form and in the scientific one. Without its
sign it begins with a digit and consists of ASCII characters.
-/
namespace Formula

namespace Text

variable {c : Char} {cs : List Char} {n : Nat}

theorem digitValue?_of_isAsciiDigit (h : isAsciiDigit c = true) :
    digitValue? c = some (c.toNat - '0'.toNat) := by
  obtain ⟨-, hhigh⟩ := toNat_of_isAsciiDigit h
  rw [digitValue?, if_pos (by omega), if_pos h]

theorem isDecimalDigit_of_isAsciiDigit (h : isAsciiDigit c = true) : isDecimalDigit c = true := by
  rw [isDecimalDigit, digitValue?_of_isAsciiDigit h]
  rfl

/-- Digits are read from the left. -/
theorem foldl_digitValue? (h : ∀ c ∈ cs, isAsciiDigit c = true) (n : Nat) :
    cs.foldl (fun acc c => do return 10 * (← acc) + (← digitValue? c)) (some n) =
      some (Nat.ofDigitChars 10 cs n) := by
  induction cs generalizing n with
  | nil => rfl
  | cons c cs ih =>
    obtain ⟨hc, hcs⟩ := List.forall_mem_cons.mp h
    rw [List.foldl_cons, digitValue?_of_isAsciiDigit hc, Nat.ofDigitChars_cons]
    exact ih hcs _

theorem isAsciiDigit_of_mem_toDigits (h : c ∈ Nat.toDigits 10 n) : isAsciiDigit c = true :=
  Nat.isDigit_of_mem_toDigits (by decide) (by decide) h

theorem digitsValue?_toDigits (n : Nat) : digitsValue? (Nat.toDigits 10 n) = some n := by
  have hfold := foldl_digitValue? (fun c hc => isAsciiDigit_of_mem_toDigits (n := n) hc) 0
  rw [Nat.ofDigitChars_toDigits (by decide) (by decide)] at hfold
  unfold digitsValue?
  split
  next hnone => exact absurd hnone Nat.toDigits_ne_nil
  next => exact hfold

theorem digitsValue?_zero (h : cs ≠ []) : digitsValue? ('0' :: cs) = digitsValue? cs := by
  cases cs with
  | nil => exact absurd rfl h
  | cons c cs => rfl

/-- Zeros in front make no difference. -/
theorem digitsValue?_zeros (h : cs ≠ []) (k : Nat) :
    digitsValue? (List.replicate k '0' ++ cs) = digitsValue? cs := by
  induction k with
  | zero => rfl
  | succ k ih => rw [List.replicate_succ, List.cons_append, digitsValue?_zero (by simp [h]), ih]

end Text

theorem length_toDigits (n : Nat) : (Nat.toDigits 10 n).length = digitCount n := by
  have hcount := digitCount_pos n
  have hlength : 0 < (Nat.toDigits 10 n).length := Nat.length_toDigits_pos
  apply Nat.le_antisymm
  · exact (Nat.length_toDigits_le_iff (by decide) hcount).mpr (lt_tenTo_digitCount n)
  · have hbound := (Nat.length_toDigits_le_iff (b := 10) (n := n) (by decide) hlength).mp (Nat.le_refl _)
    exact (digitCount_le_iff hlength).mpr hbound

namespace Decimal

variable {c : Char} {digits tail : List Char} {n : Nat} {exponent : Int}

/-- Where a point is set among digits, what reads back has as many places behind it. -/
theorem unsignedOf?_pointed_append (hdigits : ∀ c ∈ digits, Text.isAsciiDigit c = true)
    (htail : ∀ c ∈ tail.head?, Text.isDecimalDigit c = false) (hpoint : ∀ c ∈ tail.head?, c ≠ '.')
    (hvalue : Text.digitsValue? digits = some n) (hexponent : exponentOf? tail = some exponent) (places : Nat) :
    unsignedOf? (pointed digits places ++ tail) = some ⟨false, n, exponent - places⟩ := by
  have hall : ∀ c ∈ digits, Text.isDecimalDigit c = true :=
    fun c hc => Text.isDecimalDigit_of_isAsciiDigit (hdigits c hc)
  have hnonempty : digits ≠ [] := by
    rintro rfl
    cases hvalue
  unfold pointed
  split
  next hnone =>
    rw [unsignedOf?_append hall htail hpoint, hvalue, hexponent, hnone]
    simp
  split
  next hshort =>
    -- The point stands before all digits.
    have hzero : ∀ c ∈ ['0'], Text.isDecimalDigit c = true := List.forall_mem_singleton.mpr rfl
    have hfraction : ∀ c ∈ List.replicate (places - digits.length) '0' ++ digits,
        Text.isDecimalDigit c = true :=
      List.forall_mem_append.mpr ⟨fun c hc => (List.mem_replicate.mp hc).2 ▸ rfl, hall⟩
    have hlength : (List.replicate (places - digits.length) '0' ++ digits).length = places := by
      simp
      omega
    have hread := unsignedOf?_append_point hzero htail hfraction
    rw [List.singleton_append, List.singleton_append, Text.digitsValue?_zero (by simp [hnonempty]),
      Text.digitsValue?_zeros hnonempty, hvalue, hexponent, hlength] at hread
    simpa using hread
  next hlong =>
    have hwhole : ∀ c ∈ digits.take (digits.length - places), Text.isDecimalDigit c = true :=
      fun c hc => hall c (List.mem_of_mem_take hc)
    have hfraction : ∀ c ∈ digits.drop (digits.length - places), Text.isDecimalDigit c = true :=
      fun c hc => hall c (List.mem_of_mem_drop hc)
    have hlength : (digits.drop (digits.length - places)).length = places := by
      simp
      omega
    have hread := unsignedOf?_append_point hwhole htail hfraction
    rw [List.take_append_drop, hvalue, hexponent, hlength] at hread
    simpa using hread

theorem exponentOf?_signed (adjusted : Int) :
    exponentOf? ('E' :: (if adjusted < 0 then '-' else '+') :: Nat.toDigits 10 adjusted.natAbs) =
      some adjusted := by
  have hread := Text.digitsValue?_toDigits adjusted.natAbs
  split
  next hbelow =>
    have hsize : -(adjusted.natAbs : Int) = adjusted := by omega
    simp only [exponentOf?, hread]
    exact congrArg some hsize
  next habove =>
    have hsize : (adjusted.natAbs : Int) = adjusted := by omega
    simp only [exponentOf?, hread]
    exact congrArg some hsize

/-- What is printed without a sign reads back as the magnitude. -/
theorem unsignedOf?_unsignedChars (d : Decimal) : unsignedOf? d.unsignedChars = some d.magnitude := by
  have hdigits : ∀ c ∈ Nat.toDigits 10 d.coefficient, Text.isAsciiDigit c = true :=
    fun c => Text.isAsciiDigit_of_mem_toDigits
  have hvalue := Text.digitsValue?_toDigits d.coefficient
  unfold unsignedChars
  dsimp only
  split
  next hplain =>
    have hnone : exponentOf? [] = some 0 := rfl
    have hread := unsignedOf?_pointed_append hdigits (by simp) (by simp) hvalue hnone (-d.exponent).toNat
    rw [List.append_nil] at hread
    rw [hread, magnitude]
    congr 2
    omega
  next =>
    have hmark : Text.isDecimalDigit 'E' = false := by decide
    have hread := unsignedOf?_pointed_append hdigits (by simpa using hmark) (by simp) hvalue
      (exponentOf?_signed d.adjusted) ((Nat.toDigits 10 d.coefficient).length - 1)
    have hcount := digitCount_pos d.coefficient
    rw [hread, magnitude, length_toDigits]
    congr 2
    unfold adjusted
    omega

theorem pointed_chars (hdigits : ∀ c ∈ digits, Text.isAsciiDigit c = true) (places : Nat) :
    ∀ c ∈ pointed digits places, Text.isAsciiDigit c = true ∨ c = '.' := by
  intro c hc
  unfold pointed at hc
  split at hc
  · exact .inl (hdigits c hc)
  split at hc
  · simp only [List.mem_cons, List.mem_append, List.mem_replicate] at hc
    obtain rfl | rfl | ⟨-, rfl⟩ | hc := hc
    · exact .inl rfl
    · exact .inr rfl
    · exact .inl rfl
    · exact .inl (hdigits c hc)
  · simp only [List.mem_cons, List.mem_append] at hc
    obtain hc | rfl | hc := hc
    · exact .inl (hdigits c (List.mem_of_mem_take hc))
    · exact .inr rfl
    · exact .inl (hdigits c (List.mem_of_mem_drop hc))

/-- A digit stands before the point. -/
theorem exists_pointed_head (hdigits : ∀ c ∈ digits, Text.isAsciiDigit c = true) (hnonempty : digits ≠ [])
    (places : Nat) : ∃ c cs, pointed digits places = c :: cs ∧ Text.isAsciiDigit c = true := by
  obtain ⟨first, rest, rfl⟩ := List.exists_cons_of_ne_nil hnonempty
  have hfirst := hdigits first List.mem_cons_self
  unfold pointed
  split
  · exact ⟨first, rest, rfl, hfirst⟩
  split
  · exact ⟨'0', _, rfl, rfl⟩
  next hlong =>
    obtain ⟨taken, htaken⟩ : ∃ taken, (first :: rest).length - places = taken + 1 :=
      ⟨(first :: rest).length - places - 1, by omega⟩
    rw [htaken, List.take_succ_cons]
    exact ⟨first, _, rfl, hfirst⟩

theorem exists_unsignedChars_head (d : Decimal) :
    ∃ c cs, d.unsignedChars = c :: cs ∧ Text.isAsciiDigit c = true := by
  have hdigits : ∀ c ∈ Nat.toDigits 10 d.coefficient, Text.isAsciiDigit c = true :=
    fun c => Text.isAsciiDigit_of_mem_toDigits
  unfold unsignedChars
  dsimp only
  split
  · exact exists_pointed_head hdigits Nat.toDigits_ne_nil _
  · obtain ⟨c, cs, hpointed, hc⟩ := exists_pointed_head hdigits Nat.toDigits_ne_nil
      ((Nat.toDigits 10 d.coefficient).length - 1)
    exact ⟨c, _, by rw [hpointed]; rfl, hc⟩

theorem unsignedChars_ascii (d : Decimal) : ∀ c ∈ d.unsignedChars, c.toNat < 128 := by
  have hdigit {c : Char} (hc : Text.isAsciiDigit c = true) : c.toNat < 128 := by
    obtain ⟨-, hhigh⟩ := Text.toNat_of_isAsciiDigit hc
    omega
  have hdigits : ∀ c ∈ Nat.toDigits 10 d.coefficient, Text.isAsciiDigit c = true :=
    fun c => Text.isAsciiDigit_of_mem_toDigits
  have hpointed (places : Nat) : ∀ c ∈ pointed (Nat.toDigits 10 d.coefficient) places, c.toNat < 128 := by
    intro c hc
    obtain hc | rfl := pointed_chars hdigits places c hc
    · exact hdigit hc
    · decide
  unfold unsignedChars
  dsimp only
  split
  · exact hpointed _
  · have hsign : (if d.adjusted < 0 then '-' else '+').toNat < 128 := by split <;> decide
    rw [List.forall_mem_append, List.forall_mem_cons, List.forall_mem_cons]
    exact ⟨hpointed _, by decide, hsign, fun c hc => hdigit (Text.isAsciiDigit_of_mem_toDigits hc)⟩

end Decimal

end Formula
