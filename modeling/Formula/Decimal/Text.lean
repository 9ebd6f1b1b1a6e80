import Formula.Decimal.Context
import Formula.Text.Digit

/-! # Decimals as text

A decimal is written positionally when its exponent is not above zero and its leading digit is not
below the sixth place, and in scientific form otherwise. What is written reads back as the same
decimal, trailing zeros included.
-/
namespace Formula.Decimal

def pointed (digits : List Char) (places : Nat) : List Char :=
  if places = 0 then digits
  else if digits.length ≤ places then
    '0' :: '.' :: (List.replicate (places - digits.length) '0' ++ digits)
  else digits.take (digits.length - places) ++ '.' :: digits.drop (digits.length - places)

def unsignedChars (d : Decimal) : List Char :=
  let digits := Nat.toDigits 10 d.coefficient
  if d.exponent ≤ 0 ∧ -6 ≤ d.adjusted then pointed digits (-d.exponent).toNat
  else
    pointed digits (digits.length - 1) ++
      'E' :: (if d.adjusted < 0 then '-' else '+') :: Nat.toDigits 10 d.adjusted.natAbs

def chars (d : Decimal) : List Char :=
  if d.negative then '-' :: d.unsignedChars else d.unsignedChars

def text (d : Decimal) : String := String.ofList d.chars

instance : ToString Decimal := ⟨text⟩

def exponentOf? : List Char → Option Int
  | [] => some 0
  | 'e' :: rest | 'E' :: rest =>
    match rest with
    | '-' :: ds => (Text.digitsValue? ds).map fun n => -(n : Int)
    | '+' :: ds => (Text.digitsValue? ds).map fun n => (n : Int)
    | ds => (Text.digitsValue? ds).map fun n => (n : Int)
  | _ :: _ => none

/-- A number without sign: digits, perhaps a point among or around them, perhaps an exponent. -/
def unsignedOf? (cs : List Char) : Option Decimal :=
  let whole := cs.takeWhile Text.isDecimalDigit
  let rest := cs.dropWhile Text.isDecimalDigit
  let (fraction, tail) :=
    match rest with
    | '.' :: more => (more.takeWhile Text.isDecimalDigit, more.dropWhile Text.isDecimalDigit)
    | _ => ([], rest)
  do
    let coefficient ← Text.digitsValue? (whole ++ fraction)
    let exponent ← exponentOf? tail
    return ⟨false, coefficient, exponent - fraction.length⟩

/-- Reads a finite number. Every decimal digit of every script counts as a digit. -/
def ofChars? : List Char → Option Decimal
  | '-' :: cs => (unsignedOf? cs).map negate
  | '+' :: cs => unsignedOf? cs
  | cs => unsignedOf? cs

def ofText? (s : String) : Option Decimal := ofChars? s.toList

end Formula.Decimal
