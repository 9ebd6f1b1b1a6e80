import Formula.Rpn
import Formula.Token.Scan

/-! # Closing a registry

A closed registry reads texts as it did before: scanning and listing look at its operators and functions
only.
-/
namespace Formula

theorem Registry.constants_eq_of_freeze {registry other : Registry} (h : registry.freeze = other.freeze) :
    registry.constants = other.constants := by
  have hconstants := congrArg Registry.constants h
  exact hconstants

variable (registry : Registry)

namespace Lexeme

theorem registeredLength_freeze (run : List Char) (bound : Nat) :
    registeredLength registry.freeze run bound = registeredLength registry run bound := by
  induction bound with
  | zero => rfl
  | succ bound ih =>
    rw [registeredLength, registeredLength, ih]
    rfl

theorem operatorChars_freeze (run : List Char) :
    operatorChars registry.freeze run = operatorChars registry run := by
  rw [operatorChars, operatorChars, registeredLength_freeze]
  rfl

theorem scan_freeze (previous : Option TokenKind) (offset : Nat) (c : Char) (cs : List Char) :
    scan registry.freeze previous offset c cs = scan registry previous offset c cs := by
  simp only [scan, operator, operatorChars_freeze]

theorem scanFrom_freeze (found : List Lexeme) (offset skip : Nat) (cs : List Char) :
    scanFrom registry.freeze found offset skip cs = scanFrom registry found offset skip cs := by
  induction cs generalizing found offset skip with
  | nil => cases skip <;> rfl
  | cons c cs ih => cases skip <;> simp only [scanFrom, scan_freeze, ih]

end Lexeme

theorem tokenize_freeze (source : String) : tokenize registry.freeze source = tokenize registry source := by
  rw [tokenize, tokenize, scanText, scanText, Lexeme.scanFrom_freeze]

namespace Rpn

theorem releaseFor_freeze (op : Operator) (output waiting : List Token) :
    releaseFor registry.freeze op output waiting = releaseFor registry op output waiting := by
  induction waiting generalizing output with
  | nil => rfl
  | cons top rest ih =>
    rw [releaseFor, releaseFor]
    simp only [ih]
    rfl

theorem step_freeze (previous : Option Token) (token : Token) (yard : Yard) :
    step registry.freeze previous token yard = step registry previous token yard := by
  simp only [step, joinOperands, addOperator, releaseFor_freeze]
  rfl

theorem steps_freeze (previous : Option Token) (yard : Yard) (tokens : List Token) :
    steps registry.freeze previous yard tokens = steps registry previous yard tokens := by
  induction tokens generalizing previous yard with
  | nil => rfl
  | cons token tokens ih => simp only [steps, step_freeze, ih]

theorem countTokens_freeze (scopes : Scopes) (tokens : List Token) :
    countTokens registry.freeze scopes tokens = countTokens registry scopes tokens := by
  induction tokens generalizing scopes with
  | nil => rfl
  | cons token tokens ih =>
    simp only [countTokens, ih]
    rfl

theorem checked_freeze (tokens : List Token) :
    checked registry.freeze tokens = checked registry tokens := by
  rw [checked, checked, ofTokens, ofTokens, steps_freeze]
  simp only [validate, countTokens_freeze]

end Rpn

end Formula
