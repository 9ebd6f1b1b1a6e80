/-! # Places in a document

A cursor stands before the rest of a document and knows its line and column, both from zero, and how
many characters it has passed.
-/
namespace Formula.Yaml

structure Cursor where
  rest : List Char
  line : Nat := 0
  column : Nat := 0
  index : Nat := 0

def isBreak (c : Char) : Bool :=
  c == '\n' || c == '\r' || c == '\u0085' || c == '\u2028' || c == '\u2029'

def endsLine : Option Char → Bool
  | none => true
  | some c => isBreak c

def endsWord : Option Char → Bool
  | some ' ' => true
  | c => endsLine c

/-- An indicator stands alone before this: before a blank or at the end of the line. -/
def endsIndicator : Option Char → Bool
  | some '\t' => true
  | c => endsWord c

/-- A mark at the start of a document that belongs to no line. -/
def orderMark : Char := '\ufeff'

namespace Cursor

def peek (cursor : Cursor) : Option Char := cursor.rest.head?

def peekAt (cursor : Cursor) (k : Nat) : Option Char := cursor.rest[k]?

/-- Passes one character. A carriage return before a line feed ends no line of its own. -/
def advance (cursor : Cursor) : Cursor :=
  match cursor.rest with
  | [] => cursor
  | c :: rest =>
    if isBreak c && !(c == '\r' && rest.head? == some '\n') then
      ⟨rest, cursor.line + 1, 0, cursor.index + 1⟩
    else if c = orderMark then { cursor with rest, index := cursor.index + 1 }
    else { cursor with rest, column := cursor.column + 1, index := cursor.index + 1 }

def skip (cursor : Cursor) : (count : Nat) → Cursor
  | 0 => cursor
  | count + 1 => cursor.advance.skip count

def skipWhile (cursor : Cursor) (p : Char → Bool) : Cursor := cursor.skip (cursor.rest.takeWhile p).length

def span (cursor : Cursor) (p : Char → Bool) : List Char × Cursor :=
  let passed := cursor.rest.takeWhile p
  (passed, cursor.skip passed.length)

def skipSpaces (cursor : Cursor) : Cursor := cursor.skipWhile (· == ' ')

def lineText (cursor : Cursor) : List Char × Cursor := cursor.span fun c => !isBreak c

/-- Passes a line break, if one is here, and tells how it counts: most breaks count as line feeds. -/
def lineBreak? (cursor : Cursor) : Option (Char × Cursor) :=
  match cursor.rest with
  | '\r' :: '\n' :: _ => some ('\n', cursor.skip 2)
  | c :: _ =>
    if isBreak c then
      some (if c == '\u2028' || c == '\u2029' then c else '\n', cursor.advance)
    else none
  | [] => none

def standsBefore (cursor : Cursor) (c : Char) : Bool :=
  cursor.rest.take 3 == [c, c, c] && endsIndicator (cursor.peekAt 3)

def atDocumentMark (cursor : Cursor) : Bool := cursor.standsBefore '-' || cursor.standsBefore '.'

end Cursor

end Formula.Yaml
