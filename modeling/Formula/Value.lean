import Formula.Decimal.Text
import Formula.Failure

/-! # Values

What expressions produce: null, numbers, texts, lists and objects of the host. A value may carry the
name of the variable it was read from or assigned to; only assignments look at that name.
-/
namespace Formula

/-- A unit that a number is shown in. It changes how the number is written and named, not what it
counts. -/
structure Denomination where
  name : String
  mark : String
deriving DecidableEq

/-- A value that the host supplies: its kind, its text, whether it counts as true, and how a developer
would spell it. -/
structure HostObject where
  kind : String
  text : String
  truth : Bool
  spelling : String := text
deriving DecidableEq

inductive Value where
  | null (binding : Option String)
  | number (amount : Decimal) (unit : Option Denomination) (binding : Option String)
  | text (content : String) (binding : Option String)
  | list (items : List Value) (binding : Option String)
  | host (object : HostObject) (binding : Option String)
deriving Inhabited

namespace Value

def ofDecimal (amount : Decimal) : Value := .number amount none none

def ofNat (n : Nat) : Value := ofDecimal (.ofNat n)

def ofInt (n : Int) : Value := ofDecimal (.ofInt n)

def zero : Value := ofNat 0

def ofBool (flag : Bool) : Value := ofNat (if flag then 1 else 0)

def binding : Value → Option String
  | .null binding | .number _ _ binding | .text _ binding | .list _ binding | .host _ binding => binding

def boundTo (name : String) : Value → Value
  | .null _ => .null (some name)
  | .number amount unit _ => .number amount unit (some name)
  | .text content _ => .text content (some name)
  | .list items _ => .list items (some name)
  | .host object _ => .host object (some name)

def numberKind : String := "NumericValue"

def numberSpelling (digits : String) : String := numberKind ++ "(" ++ Text.quoted digits ++ ")"

def kind : Value → String
  | .null _ => "NullValue"
  | .number _ none _ => numberKind
  | .number _ (some unit) _ => unit.name
  | .text .. => "StringValue"
  | .list .. => "ListValue"
  | .host object _ => object.kind

mutual
def string : Value → String
  | .null _ => ""
  | .number amount none _ => amount.text
  | .number amount (some unit) _ => unit.mark ++ amount.text
  | .text content _ => content
  | .list items _ => "[" ++ ", ".intercalate (strings items) ++ "]"
  | .host object _ => object.text
def strings : List Value → List String
  | [] => []
  | item :: items => item.string :: strings items
end

mutual
def levels : Value → Nat
  | .list items _ => levelsOf items + 1
  | .null _ | .number .. | .text .. | .host .. => 0
def levelsOf : List Value → Nat
  | [] => 0
  | item :: items => max item.levels (levelsOf items)
end

/-- The frames that making the text takes: three for each level of lists, and one for what is innermost. -/
def textFrames (value : Value) : Nat := 3 * value.levels + 1

/-- Null, zero, the empty text and the empty list are false. -/
def truth : Value → Bool
  | .null _ => false
  | .number amount _ _ => !amount.isZero
  | .text content _ => !content.isEmpty
  | .list items _ => !items.isEmpty
  | .host object _ => object.truth

mutual
def spelled : Value → String
  | .null _ => "NullValue()"
  | .number amount _ _ => numberSpelling amount.text
  | .text content _ => "StringValue(" ++ Text.quoted content ++ ")"
  | .list items _ => "ListValue([" ++ ", ".intercalate (spelledAll items) ++ "])"
  | .host object _ => object.spelling
def spelledAll : List Value → List String
  | [] => []
  | item :: items => item.spelled :: spelledAll items
end

end Value

end Formula
