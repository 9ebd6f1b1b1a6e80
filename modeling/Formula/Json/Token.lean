import Formula.Datum

/-! # Tokens of JSON

A text is cut at blanks, at punctuation and at quoted texts. What is left are words, and every word is
a number or one of the few names of values. Where the text can be cut no further a last token says so.
-/
namespace Formula.Json

inductive Token where
  | openList
  | closeList
  | openMap
  | closeMap
  | colon
  | comma
  | text (content : String)
  /-- A value that is no text and has no parts. -/
  | scalar (datum : Datum)
  /-- Stands for the rest of a text where no token can be read. -/
  | unreadable

def mark? (c : Char) : Option Token :=
  if c = '[' then some .openList
  else if c = ']' then some .closeList
  else if c = '\x7b' then some .openMap
  else if c = '\x7d' then some .closeMap
  else if c = ':' then some .colon
  else if c = ',' then some .comma
  else none

def isBlank (c : Char) : Bool := c == ' ' || c == '\t' || c == '\n' || c == '\r'

def names : List (String × Datum) :=
  [("null", .none),
   ("true", .bool true),
   ("false", .bool false),
   ("NaN", .float (0 / 0)),
   ("Infinity", .float (1 / 0)),
   ("-Infinity", .float (-1 / 0))]

def isWhole : List Char → Bool
  | [] => false
  | ['0'] => true
  | c :: cs => c != '0' && (c :: cs).all Text.isAsciiDigit

def isExponent : List Char → Bool
  | [] => true
  | mark :: cs =>
    let digits :=
      match cs with
      | '+' :: digits | '-' :: digits => digits
      | digits => digits
    (mark == 'e' || mark == 'E') && !digits.isEmpty && digits.all Text.isAsciiDigit

def isFraction : List Char → Bool
  | '.' :: cs =>
    let digits := cs.takeWhile Text.isAsciiDigit
    !digits.isEmpty && isExponent (cs.dropWhile Text.isAsciiDigit)
  | cs => isExponent cs

def number? (word : List Char) : Option Datum :=
  let unsigned :=
    match word with
    | '-' :: cs => cs
    | cs => cs
  let whole := unsigned.takeWhile Text.isAsciiDigit
  let rest := unsigned.dropWhile Text.isAsciiDigit
  if isWhole whole && isFraction rest then
    (Decimal.ofChars? word).map fun number =>
      if rest.isEmpty then .int number.truncate else .float (Binary64.ofDecimal number)
  else none

def word? (word : List Char) : Option Token :=
  match names.lookup (String.ofList word) with
  | some datum => some (.scalar datum)
  | none => (number? word).map .scalar

def stopped (found : List Token) : List Token := (Token.unreadable :: found).reverse

def hexValue? (c : Char) : Option Nat :=
  if Text.isAsciiDigit c then some (c.toNat - '0'.toNat)
  else if 'a' ≤ c ∧ c ≤ 'f' then some (c.toNat - 'a'.toNat + 10)
  else if 'A' ≤ c ∧ c ≤ 'F' then some (c.toNat - 'A'.toNat + 10)
  else none

def hexNumber? (cs : List Char) : Option Nat :=
  cs.foldl (fun acc c => do return 16 * (← acc) + (← hexValue? c)) (some 0)

def escapes : List (Char × Char) :=
  [('"', '"'), ('\\', '\\'), ('/', '/'), ('b', '\x08'), ('f', '\x0c'), ('n', '\n'), ('r', '\r'),
   ('t', '\t')]

/-- Stands for half of a character that lacks its other half. -/
def replacement : Char := '\ufffd'

/-- What is being read: nothing, a word or a quoted text, whose characters come latest first. A quoted
text may wait for the second half of a character. -/
inductive Mode where
  | between
  | word (characters : List Char)
  | quoted (content : List Char) (half : Option Nat)

def settled (content : List Char) : Option Nat → List Char
  | none => content
  | some _ => replacement :: content

def addUnit (content : List Char) (half : Option Nat) (unit : Nat) : Mode :=
  match half with
  | some high =>
    if 0xdc00 ≤ unit ∧ unit < 0xe000 then
      .quoted (Char.ofNat (0x10000 + (high - 0xd800) * 0x400 + (unit - 0xdc00)) :: content) none
    else if 0xd800 ≤ unit ∧ unit < 0xdc00 then .quoted (replacement :: content) (some unit)
    else .quoted (Char.ofNat unit :: replacement :: content) none
  | none =>
    if 0xd800 ≤ unit ∧ unit < 0xdc00 then .quoted content (some unit)
    else if 0xdc00 ≤ unit ∧ unit < 0xe000 then .quoted (replacement :: content) none
    else .quoted (Char.ofNat unit :: content) none

def between (found : List Token) (c : Char) : List Token × Mode :=
  match mark? c with
  | some mark => (mark :: found, .between)
  | none =>
    if isBlank c then (found, .between)
    else if c = '"' then (found, .quoted [] none)
    else (found, .word [c])

/-- Scans as far as tokens can be read. `found` holds the tokens so far, the latest first. -/
def scanFrom (found : List Token) : Mode → List Char → List Token
  | .between, [] => found.reverse
  | .between, c :: cs =>
    let (found, mode) := between found c
    scanFrom found mode cs
  | .word characters, [] =>
    match word? characters.reverse with
    | some token => (token :: found).reverse
    | none => stopped found
  | .word characters, c :: cs =>
    if (mark? c).isSome || isBlank c || c == '"' then
      match word? characters.reverse with
      | some token =>
        let (found, mode) := between (token :: found) c
        scanFrom found mode cs
      | none => stopped found
    else scanFrom found (.word (c :: characters)) cs
  | .quoted _ _, [] => stopped found
  | .quoted content half, '\\' :: 'u' :: a :: b :: c :: d :: cs =>
    match hexNumber? [a, b, c, d] with
    | some unit => scanFrom found (addUnit content half unit) cs
    | none => stopped found
  | .quoted content half, '\\' :: c :: cs =>
    match escapes.lookup c with
    | some character => scanFrom found (.quoted (character :: settled content half) none) cs
    | none => stopped found
  | .quoted content half, c :: cs =>
    if c = '"' then
      scanFrom (.text (String.ofList (settled content half).reverse) :: found) .between cs
    else if c.toNat < 0x20 ∨ c = '\\' then stopped found
    else scanFrom found (.quoted (c :: settled content half) none) cs

def scan (text : String) : List Token := scanFrom [] .between text.toList

end Formula.Json
