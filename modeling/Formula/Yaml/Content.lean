import Formula.Datum
import Formula.Text.Integer
import Formula.Text.Lowercase
import Formula.Yaml.Tag
import Formula.Yaml.Token

/-! # The content of scalars

What the content of a scalar stands for under its tag: nothing, truth, a number, bytes or a text.
-/
namespace Formula.Yaml.Content

def truthWords : List (String × Bool) :=
  [("yes", true), ("no", false), ("true", true), ("false", false), ("on", true), ("off", false)]

def truth (content : String) : Except Failure Datum :=
  match truthWords.lookup (Text.lower content) with
  | some flag => .ok (.bool flag)
  | none => .error (.fault .missingKey)

/-! ## Numbers -/

def pieces (separator : Char) : List Char → List (List Char)
  | [] => [[]]
  | c :: cs =>
    match pieces separator cs with
    | [] => [[c]]
    | piece :: rest => if c = separator then [] :: piece :: rest else (c :: piece) :: rest

def quoteBound : Nat := 200

/-- An integer in a base, or the complaint that there is none. -/
def integerOf (base : Nat) (cs : List Char) : Except Failure Int :=
  match Text.integer? base cs with
  | some n => .ok n
  | none =>
    let quotation := (Text.quoted (String.ofList cs)).toList.take quoteBound
    .error (.invalid ("invalid literal for int() with base " ++ toString base ++ ": " ++
      String.ofList quotation))

def doubleOf (cs : List Char) : Except Failure Float :=
  let text := Text.trimmed Text.isNumberBlank cs
  match Decimal.ofChars? text with
  | some number => .ok (Binary64.ofDecimal number)
  | none =>
    let (negative, name) :=
      match text with
      | '-' :: name => (true, name)
      | '+' :: name => (false, name)
      | name => (false, name)
    let name := Text.lower (String.ofList name)
    if name = "inf" ∨ name = "infinity" then .ok (Binary64.infinity negative)
    else if name = "nan" then .ok (0 / 0)
    else .error (.invalid ("could not convert string to float: " ++ Text.quoted (String.ofList cs)))

def signed : List Char → Except Failure (Bool × List Char)
  | [] => .error (.fault .missingItem)
  | '-' :: rest => .ok (true, rest)
  | '+' :: rest => .ok (false, rest)
  | rest => .ok (false, rest)

def unsignedOf (cs : List Char) : Except Failure Int :=
  match cs with
  | [] => .error (.fault .missingItem)
  | ['0'] => .ok 0
  | '0' :: 'b' :: digits => integerOf 2 digits
  | '0' :: 'x' :: digits => integerOf 16 digits
  | '0' :: _ => integerOf 8 cs
  | _ =>
    if cs.contains ':' then do
      let places ← (pieces ':' cs).mapM (integerOf 10)
      return places.foldl (fun n place => 60 * n + place) 0
    else integerOf 10 cs

def integer (content : String) : Except Failure Datum := do
  let (negative, cs) ← signed (content.toList.filter (· ≠ '_'))
  let n ← unsignedOf cs
  return .int (if negative then -n else n)

/-- Adds the places of a number to the base sixty, the lowest first, to `sum`. No place may weigh more
than a double can say. -/
def sumOfSixties (sum : Float) (weight : Nat) : List Float → Except Failure Float
  | [] => .ok sum
  | place :: places =>
    let factor := Binary64.ofDecimal (.ofNat weight)
    if factor == Binary64.infinity false then .error (.tooLarge "int too large to convert to float")
    else sumOfSixties (sum + place * factor) (60 * weight) places

def undefinedName : String := ".nan"

def signedDouble (content : String) : Except Failure (Bool × List Char) :=
  signed ((Text.lower content).toList.filter (· ≠ '_'))

def double (content : String) : Except Failure Datum := do
  let (negative, cs) ← signedDouble content
  let x ←
    if String.ofList cs = ".inf" then pure (Binary64.infinity false)
    else if String.ofList cs = undefinedName then pure (0 / 0)
    else if cs.contains ':' then do
      let places ← (pieces ':' cs).mapM doubleOf
      sumOfSixties 0 1 places.reverse
    else doubleOf cs
  return .float (if negative then -x else x)

def isUndefined (content : String) : Bool :=
  match signedDouble content with
  | .ok (_, cs) => String.ofList cs == undefinedName
  | .error _ => false

/-! ## Bytes -/

def bitsOf? (c : Char) : Option Nat :=
  if 'A' ≤ c ∧ c ≤ 'Z' then some (c.toNat - 'A'.toNat)
  else if 'a' ≤ c ∧ c ≤ 'z' then some (c.toNat - 'a'.toNat + 26)
  else if '0' ≤ c ∧ c ≤ '9' then some (c.toNat - '0'.toNat + 52)
  else if c = '+' then some 62
  else if c = '/' then some 63
  else none

/-- A group of four characters stands for three bytes. `group` holds the bits of the characters of the
current group so far, the latest first, and `fillers` counts the fillers after them; `found` holds the
bytes, the latest first. The last group may be filled up; what follows it does not count, nor do other
characters. -/
def bytesFrom? (found : List UInt8) (group : List Nat) (fillers : Nat) : List Char → Option (List UInt8)
  | [] => if group.isEmpty then some found.reverse else none
  | c :: cs =>
    if c = '=' then
      if group.length < 2 then bytesFrom? found group fillers cs
      else if 4 ≤ group.length + fillers + 1 then some found.reverse
      else bytesFrom? found group (fillers + 1) cs
    else
      match bitsOf? c, group with
      | none, _ => bytesFrom? found group fillers cs
      | some bits, [] => bytesFrom? found [bits] 0 cs
      | some bits, last :: before =>
        let byte :=
          match before with
          | [] => last * 4 + bits / 16
          | [_] => last % 16 * 16 + bits / 4
          | _ => last % 4 * 64 + bits
        bytesFrom? (byte.toUInt8 :: found) (if before.length < 2 then bits :: group else []) 0 cs

def bytes (content : String) : Except Failure Datum :=
  let cs := content.toList
  if cs.all (·.toNat < 128) then (required (bytesFrom? [] [] 0 cs)).map .bytes else malformed

/-! ## Contents under their tags -/

/-- The datum of a content. Dates have no form of their own, and collections no content. -/
def datum (tag : Tag) (content : String) : Except Failure Datum :=
  match tag with
  | .null => .ok .none
  | .bool => truth content
  | .int => integer content
  | .float => double content
  | .str => .ok (.text content)
  | .binary => bytes content
  | .timestamp =>
    let cs := Tag.decisive content
    if Tag.datePattern.accepts cs then .ok (.object "date")
    else if Tag.timePattern.accepts cs then .ok (.object "datetime")
    else .error (.fault .missingMember)
  | .omap | .pairs | .set | .seq | .map | .merge | .value | .other _ => malformed

end Formula.Yaml.Content
