import Formula.Datum

/-! # JSON text

Values are written in ASCII: other characters as escapes of their two-byte units. Whole numbers are
written as such, other numbers as doubles, and host objects as their texts.
-/
namespace Formula.Json

def unitEscape (unit : Nat) : List Char := '\\' :: 'u' :: Text.hexDigits 4 unit

def shortEscapes : List (Char × Char) :=
  [('"', '"'), ('\\', '\\'), ('\n', 'n'), ('\r', 'r'), ('\t', 't'), ('\x0c', 'f'), ('\x08', 'b')]

def escaped (c : Char) : List Char :=
  match shortEscapes.lookup c with
  | some letter => ['\\', letter]
  | none =>
    if ' ' ≤ c ∧ c ≤ '~' then [c]
    else if c.toNat < 0x10000 then unitEscape c.toNat
    else
      let offset := c.toNat - 0x10000
      unitEscape (0xd800 + offset / 0x400) ++ unitEscape (0xdc00 + offset % 0x400)

def quoted (s : String) : String := String.ofList ('"' :: (s.toList.flatMap escaped ++ ['"']))

def floatText (x : Float) : String :=
  match Binary64.decode x with
  | .infinite negative => if negative then "-Infinity" else "Infinity"
  | .undefined => "NaN"
  | .finite .. => Binary64.text x

def numberText (amount : Decimal) : String :=
  if amount.isIntegral then toString amount.truncate else floatText (Binary64.ofDecimal amount)

mutual
def written : Value → String
  | .null _ => "null"
  | .number amount _ _ => numberText amount
  | .text content _ => quoted content
  | .list items _ => "[" ++ ", ".intercalate (writtenItems items) ++ "]"
  | .host thing _ => quoted thing.text
def writtenItems : List Value → List String
  | [] => []
  | item :: items => written item :: writtenItems items
end

end Formula.Json
