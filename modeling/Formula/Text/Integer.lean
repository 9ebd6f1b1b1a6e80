import Formula.Text.Blank
import Formula.Text.Digit

/-! # Integers as text

An integer is written in a base with an optional sign and a marker of the base before its digits.
Underscores may separate digits, and blanks may surround the whole.
-/
namespace Formula.Text

def baseDigit? (base : Nat) (c : Char) : Option Nat :=
  let value? :=
    match digitValue? c with
    | some value => some value
    | none =>
      if 'a' ≤ c ∧ c ≤ 'z' then some (c.toNat - 'a'.toNat + 10)
      else if 'A' ≤ c ∧ c ≤ 'Z' then some (c.toNat - 'A'.toNat + 10)
      else none
  value?.filter (· < base)

/-- Digits, where one underscore may stand between two of them. -/
def baseDigits? (base value : Nat) (afterDigit : Bool) : List Char → Option Nat
  | [] => if afterDigit then some value else none
  | '_' :: cs => if afterDigit then baseDigits? base value false cs else none
  | c :: cs => do baseDigits? base (base * value + (← baseDigit? base c)) true cs

def baseMarks (base : Nat) : List Char :=
  if base = 2 then ['b', 'B'] else if base = 8 then ['o', 'O'] else if base = 16 then ['x', 'X'] else []

def unsignedInteger? (base : Nat) (cs : List Char) : Option Nat :=
  match cs with
  | '0' :: mark :: rest =>
    if (baseMarks base).contains mark then
      match rest with
      | '_' :: digits => baseDigits? base 0 false digits
      | digits => baseDigits? base 0 false digits
    else baseDigits? base 0 false cs
  | _ => baseDigits? base 0 false cs

def integer? (base : Nat) (cs : List Char) : Option Int :=
  match trimmed isNumberBlank cs with
  | '-' :: rest => (unsignedInteger? base rest).map fun n => -(n : Int)
  | '+' :: rest => (unsignedInteger? base rest).map fun n => (n : Int)
  | rest => (unsignedInteger? base rest).map fun n => (n : Int)

end Formula.Text
