import Formula.Registry
import Formula.Token

/-! # Scanning a text into tokens

A token is scanned from the characters that are left, and covers a span of them. Operators are found in
the registry: of a run of symbol characters the longest registered beginning is taken, or the whole run
if none is registered. Texts in quotes that only blanks separate are one token.
-/
namespace Formula

/-- A token and the number of characters that it covers. -/
structure Lexeme where
  token : Token
  span : Nat
deriving DecidableEq

namespace Lexeme

def isHexDigit (c : Char) : Bool :=
  Text.isAsciiDigit c || (decide ('a' ≤ c) && decide (c ≤ 'f')) ||
    (decide ('A' ≤ c) && decide (c ≤ 'F'))

/-- The exponent at the start of `cs`: a marker, perhaps a sign, and digits. Without digits there is
none. -/
def exponentPart (cs : List Char) : List Char :=
  match cs with
  | mark :: rest =>
    if mark = 'e' ∨ mark = 'E' then
      match rest with
      | sign :: more =>
        if sign = '+' ∨ sign = '-' then
          let digits := more.takeWhile Text.isAsciiDigit
          if digits.isEmpty then [] else mark :: sign :: digits
        else
          let digits := rest.takeWhile Text.isAsciiDigit
          if digits.isEmpty then [] else mark :: digits
      | [] => []
    else []
  | [] => []

def digitsPart (offset : Nat) (cs : List Char) : Except Failure (List Char) :=
  let whole := cs.takeWhile Text.isAsciiDigit
  match cs.dropWhile Text.isAsciiDigit with
  | '.' :: rest =>
    let number := whole ++ '.' :: rest.takeWhile Text.isAsciiDigit
    match rest.dropWhile Text.isAsciiDigit with
    | '.' :: _ => .error (.at (.malformedNumber (String.ofList (number ++ ['.']))) offset)
    | _ => .ok number
  | _ => .ok whole

def plain (kind : TokenKind) (offset : Nat) (cs : List Char) : Lexeme :=
  ⟨⟨kind, String.ofList cs, offset⟩, cs.length⟩

def decimal (offset : Nat) (cs : List Char) : Except Failure Lexeme := do
  let digits ← digitsPart offset cs
  return plain .number offset (digits ++ exponentPart (cs.drop digits.length))

def hexadecimal (offset : Nat) (zero mark : Char) (cs : List Char) : Except Failure Lexeme :=
  let digits := cs.takeWhile isHexDigit
  if digits.isEmpty then .error (.at .malformedHexadecimal offset)
  else .ok (plain .hexadecimal offset (zero :: mark :: digits))

def number (offset : Nat) (cs : List Char) : Except Failure Lexeme :=
  match cs with
  | '0' :: 'x' :: rest => hexadecimal offset '0' 'x' rest
  | '0' :: 'X' :: rest => hexadecimal offset '0' 'X' rest
  | _ => decimal offset cs

mutual
/-- The rest of a quoted piece that opened at `quote`. `content` holds what was read, the latest
character first, and `span` counts the characters up to here. -/
def quotedPiece (start quote span : Nat) (content : List Char) : List Char → Except Failure Lexeme
  | [] => .error (.at .unterminatedString quote)
  | c :: cs =>
    if c = '\'' then afterPiece start (span + 1) (span + 1) content cs
    else quotedPiece start quote (span + 1) (c :: content) cs
/-- What follows a closed piece of a text that covers `closed` characters: blanks and another piece, or
anything else, which is left. -/
def afterPiece (start closed span : Nat) (content : List Char) : List Char → Except Failure Lexeme
  | [] => .ok ⟨⟨.text, String.ofList content.reverse, start⟩, closed⟩
  | c :: cs =>
    if c = '\'' then quotedPiece start (start + span) (span + 1) content cs
    else if Text.isBlank c then afterPiece start closed (span + 1) content cs
    else .ok ⟨⟨.text, String.ofList content.reverse, start⟩, closed⟩
end

def name (offset : Nat) (cs : List Char) : Lexeme :=
  let characters := cs.takeWhile Registry.isNameChar
  let called := ((cs.drop characters.length).dropWhile Text.isBlank).head? == some '('
  plain (if called then .functionName else .variableName) offset characters

/-- The greatest length of a beginning of `run`, up to `bound`, that is a registered symbol. -/
def registeredLength (registry : Registry) (run : List Char) : (bound : Nat) → Option Nat
  | 0 => none
  | bound + 1 =>
    if registry.hasSymbol (String.ofList (run.take (bound + 1))) then some (bound + 1)
    else registeredLength registry run bound

def symbolBound (registry : Registry) : Nat :=
  registry.operators.keys.foldl (fun bound key => max bound key.length) 0

/-- The characters of the operator that a run of symbol characters starts with. -/
def operatorChars (registry : Registry) (run : List Char) : List Char :=
  match registeredLength registry run (min run.length (symbolBound registry)) with
  | some length => run.take length
  | none => run

def operator (registry : Registry) (previous : Option TokenKind) (offset : Nat) (c : Char)
    (cs : List Char) : Except Failure Lexeme :=
  let run := (c :: cs).takeWhile Registry.isSymbolChar
  if run.isEmpty then .error (.at (.unexpectedCharacter c) offset)
  else
    let characters := operatorChars registry run
    let surface := String.ofList characters
    if previous.all TokenKind.precedesUnary then
      .ok ⟨⟨.unaryOperator, surface ++ unaryMark, offset⟩, characters.length⟩
    else .ok ⟨⟨.operator, surface, offset⟩, characters.length⟩

def startsNumber (c : Char) (cs : List Char) : Bool :=
  Text.isAsciiDigit c || (c == '.' && cs.head?.any Text.isAsciiDigit)

def scan (registry : Registry) (previous : Option TokenKind) (offset : Nat) (c : Char)
    (cs : List Char) : Except Failure Lexeme :=
  if startsNumber c cs then number offset (c :: cs)
  else if c = '\'' then quotedPiece offset offset 1 [] cs
  else if Registry.isNameStart c then .ok (name offset (c :: cs))
  else if c = '(' then .ok (plain .openParen offset [c])
  else if c = ')' then .ok (plain .closeParen offset [c])
  else if c = ',' then .ok (plain .comma offset [c])
  else operator registry previous offset c cs

/-- Scans to the end of the text or to the first failure. `found` holds the lexemes so far, the latest
first, and the next `skip` characters belong to the latest. -/
def scanFrom (registry : Registry) (found : List Lexeme) (offset skip : Nat) :
    List Char → List Lexeme × Option Failure
  | [] => (found.reverse, none)
  | c :: cs =>
    match skip with
    | skip + 1 => scanFrom registry found (offset + 1) skip cs
    | 0 =>
      if Text.isBlank c then scanFrom registry found (offset + 1) 0 cs
      else
        match scan registry (found.head?.map (·.token.kind)) offset c cs with
        | .error failure => (found.reverse, some failure)
        | .ok lexeme => scanFrom registry (lexeme :: found) (offset + 1) (lexeme.span - 1) cs

end Lexeme

/-- The lexemes of a text, and why scanning stopped if it did. -/
def scanText (registry : Registry) (source : String) : List Lexeme × Option Failure :=
  Lexeme.scanFrom registry [] 0 0 source.toList

def tokenize (registry : Registry) (source : String) : Except Failure (List Token) :=
  match scanText registry source with
  | (_, some failure) => .error failure
  | (lexemes, none) => .ok (lexemes.map (·.token))

end Formula
