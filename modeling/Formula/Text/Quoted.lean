import Formula.Magnitude
import Formula.Text.Printable

/-! # Quoted text

Messages quote the texts they speak of. A text stands in single quotes, or in double quotes when it
holds a single quote and no double one. The quote, the backslash and every character that would not
show are written as escapes.
-/
namespace Formula.Text

def hexDigits (width n : Nat) : List Char :=
  (List.range width).reverse.map fun place => Nat.digitChar (n / twoTo (4 * place) % 16)

/-- One character inside a quotation, in which characters that `shows` holds of stand for themselves. -/
def quotedChar (shows : Char → Bool) (quote c : Char) : List Char :=
  if c = quote ∨ c = '\\' then ['\\', c]
  else if c = '\n' then ['\\', 'n']
  else if c = '\r' then ['\\', 'r']
  else if c = '\t' then ['\\', 't']
  else if shows c then [c]
  else if c.toNat < 0x100 then '\\' :: 'x' :: hexDigits 2 c.toNat
  else if c.toNat < 0x10000 then '\\' :: 'u' :: hexDigits 4 c.toNat
  else '\\' :: 'U' :: hexDigits 8 c.toNat

def quoteFor (cs : List Char) : Char :=
  if cs.contains '\'' && !cs.contains '"' then '"' else '\''

def quotedChars (shows : Char → Bool) (cs : List Char) : List Char :=
  let quote := quoteFor cs
  quote :: (cs.flatMap (quotedChar shows quote) ++ [quote])

def quoted (s : String) : String := String.ofList (quotedChars isPrintable s.toList)

def quotedBytes (bytes : List UInt8) : String :=
  let isVisible (c : Char) : Bool := decide (' ' ≤ c) && decide (c ≤ '~')
  String.ofList ('b' :: quotedChars isVisible (bytes.map fun byte => Char.ofNat byte.toNat))

end Formula.Text
