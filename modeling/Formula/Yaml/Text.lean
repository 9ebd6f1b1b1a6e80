import Formula.Text.Quoted
import Formula.Value
import Formula.Binary64.Shortest
import Formula.Yaml.Cursor
import Formula.Yaml.Tag

/-! # YAML text

Values are written in ASCII and in block form. A text is written plainly where it reads back as itself,
in single quotes where that shows it, and in double quotes otherwise. Long texts are broken at spaces.
-/
namespace Formula.Yaml

def bestWidth : Nat := 80

inductive Style where
  | plain
  | single
  | double
deriving DecidableEq

def isTextBreak (c : Char) : Bool := isBreak c && c != '\r'

def leadingIndicators : List Char := "#,[]\x7b\x7d&*!|>'\"%@".toList ++ [Char.ofNat 0x60]

def startsIndicated : List Char → Bool
  | [] => false
  | c :: cs =>
    leadingIndicators.contains c ||
      ((c == '?' || c == ':' || c == '-') && endsIndicator cs.head?)

def holdsIndicator (previous : Char) : List Char → Bool
  | [] => false
  | c :: cs =>
    (c == ':' && endsIndicator cs.head?) || (c == '#' && endsIndicator (some previous)) ||
      holdsIndicator c cs

def startsMarked (cs : List Char) : Bool := cs.take 3 == ['-', '-', '-'] || cs.take 3 == ['.', '.', '.']

def holdsPair (p q : Char → Bool) : List Char → Bool
  | c :: d :: cs => (p c && q d) || holdsPair p q (d :: cs)
  | _ => false

def isSpace (c : Char) : Bool := c == ' '

def isSpecial (c : Char) : Bool := !(c == '\n' || (' ' ≤ c && c ≤ '~'))

def allowsPlain (cs : List Char) : Bool :=
  let indicated :=
    startsMarked cs || startsIndicated cs ||
      match cs with
      | [] => false
      | c :: rest => holdsIndicator c rest
  let bounded := cs.head?.any isSpace || cs.getLast?.any isSpace
  !indicated && !bounded && !cs.any isTextBreak && !cs.any isSpecial

/-- Single quotes show the text: no escapes are needed, and no line ends or starts with a space. -/
def allowsSingle (cs : List Char) : Bool :=
  !cs.any isSpecial && !holdsPair isSpace isTextBreak cs && !holdsPair isTextBreak isSpace cs

/-- The style of a text. One that would read as something else is quoted. -/
def styleOf (text : String) : Style :=
  let cs := text.toList
  if Tag.ofContent text = .str && allowsPlain cs then .plain
  else if allowsSingle cs then .single
  else .double

def newLine (indent : Nat) : List Char := '\n' :: List.replicate indent ' '

inductive Stretch where
  | word (cs : List Char)
  | spaces (count : Nat)
  | breaks (count : Nat)

def Stretch.ofChars (cs : List Char) : Stretch :=
  if cs.all isSpace then .spaces cs.length
  else if cs.all isTextBreak then .breaks cs.length
  else .word cs

def stretches (cs : List Char) : List Stretch :=
  (cs.splitBy fun a b => isSpace a == isSpace b && isTextBreak a == isTextBreak b).map Stretch.ofChars

/-- Writes stretches from `column` on. A single space inside the text that lies beyond the width becomes
a line break; a line break takes an empty line. -/
def brokenLines (indent column : Nat) (first : Bool) : List Stretch → List Char
  | [] => []
  | .word cs :: rest => cs ++ brokenLines indent (column + cs.length) false rest
  | .breaks count :: rest =>
    List.replicate count '\n' ++ (newLine indent ++ brokenLines indent indent false rest)
  | .spaces count :: rest =>
    if count = 1 ∧ bestWidth < column ∧ !first ∧ !rest.isEmpty then
      newLine indent ++ brokenLines indent indent false rest
    else List.replicate count ' ' ++ brokenLines indent (column + count) false rest

def plainText (indent column : Nat) (cs : List Char) : List Char :=
  brokenLines indent column true (stretches cs)

def doubledQuotes : Stretch → Stretch
  | .word cs => .word (cs.flatMap fun c => if c = '\'' then ['\'', '\''] else [c])
  | stretch => stretch

def singleText (indent column : Nat) (cs : List Char) : List Char :=
  '\'' :: (brokenLines indent (column + 1) true ((stretches cs).map doubledQuotes) ++ ['\''])

def shortEscapes : List (Char × Char) :=
  [('\x00', '0'), ('\x07', 'a'), ('\x08', 'b'), ('\t', 't'), ('\n', 'n'), ('\x0b', 'v'), ('\x0c', 'f'),
   ('\r', 'r'), ('\x1b', 'e'), ('"', '"'), ('\\', '\\'), ('\u0085', 'N'), ('\u00a0', '_'),
   ('\u2028', 'L'), ('\u2029', 'P')]

def codeDigits (width n : Nat) : List Char := (Text.hexDigits width n).map Char.toUpper

def escapeOf (c : Char) : List Char :=
  match shortEscapes.lookup c with
  | some letter => ['\\', letter]
  | none =>
    if c.toNat ≤ 0xff then '\\' :: 'x' :: codeDigits 2 c.toNat
    else if c.toNat ≤ 0xffff then '\\' :: 'u' :: codeDigits 4 c.toNat
    else '\\' :: 'U' :: codeDigits 8 c.toNat

def showsInDouble (c : Char) : Bool := c != '"' && c != '\\' && ' ' ≤ c && c ≤ '~'

/-- The inside of double quotes. `pending` holds the characters that are not written yet, the latest
first, and `column` lies before them. A line may be broken beyond the width before a space or after an
escape, but not at the ends of the text; a backslash marks the break, and keeps a space that follows. -/
def doubleChars (indent column : Nat) (pending : List Char) (first : Bool) : List Char → List Char
  | [] => pending.reverse
  | c :: rest =>
    let escaped := !showsInDouble c
    let written := pending.reverse ++ escapeOf c
    let reached := if escaped then column + written.length - 1 else column + pending.length
    let mayBreak := !first && !rest.isEmpty && (escaped || c == ' ' || pending.isEmpty)
    if mayBreak ∧ bestWidth < reached then
      let next := if escaped then rest.head? else some c
      let mark := if next = some ' ' then ['\\'] else []
      (if escaped then written else pending.reverse) ++ '\\' :: (newLine indent ++ (mark ++
        doubleChars indent (indent + mark.length) (if escaped then [] else [c]) false rest))
    else if escaped then written ++ doubleChars indent (column + written.length) [] false rest
    else doubleChars indent column (c :: pending) false rest

def doubleText (indent column : Nat) (cs : List Char) : List Char :=
  '"' :: (doubleChars indent (column + 1) [] true cs ++ ['"'])

def textChars (indent column : Nat) (text : String) : List Char :=
  match styleOf text with
  | .plain => plainText indent column text.toList
  | .single => singleText indent column text.toList
  | .double => doubleText indent column text.toList

/-- A double; one in exponent form has a point before the exponent. -/
def floatText (x : Float) : String :=
  match Binary64.decode x with
  | .infinite negative => if negative then "-.inf" else ".inf"
  | .undefined => ".nan"
  | .finite .. =>
    let cs := (Binary64.text x).toList
    if cs.contains '.' then String.ofList cs
    else String.ofList (cs.flatMap fun c => if c = 'e' then ['.', '0', 'e'] else [c])

def numberText (amount : Decimal) : String :=
  if amount.isIntegral then toString amount.truncate else floatText (Binary64.ofDecimal amount)

def joinItems (column : Nat) (items : List (List Char)) : List Char :=
  (newLine column).intercalate (items.map ('-' :: ·))

mutual
def itemChars (column : Nat) : Value → List Char
  | .null _ => " null".toList
  | .number amount _ _ => ' ' :: (numberText amount).toList
  | .text content _ => ' ' :: textChars (column + 2) (column + 2) content
  | .list items _ =>
    if items.isEmpty then " []".toList else ' ' :: joinItems (column + 2) (itemsChars (column + 2) items)
  | .host thing _ => ' ' :: textChars (column + 2) (column + 2) thing.text
def itemsChars (column : Nat) : List Value → List (List Char)
  | [] => []
  | item :: items => itemChars column item :: itemsChars column items
end

/-- A text that makes up a whole document. One without quotes may go on, so its end is marked. -/
def rootChars (text : String) : List Char :=
  let ending := if styleOf text = .plain then "\n...\n" else "\n"
  textChars 2 0 text ++ ending.toList

def written : Value → String
  | .null _ => "null\n...\n"
  | .number amount _ _ => numberText amount ++ "\n...\n"
  | .text content _ => String.ofList (rootChars content)
  | .list items _ =>
    if items.isEmpty then "[]\n" else String.ofList (joinItems 0 (itemsChars 0 items)) ++ "\n"
  | .host thing _ => String.ofList (rootChars thing.text)

end Formula.Yaml
