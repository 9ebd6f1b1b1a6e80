/-! # Lines of a text

Positions count lines by line feeds. Lines that are shown end at any line break: the carriage return,
alone or before a line feed, the vertical tab, the form feed, three of the information separators and
the three breaks beyond ASCII.
-/
namespace Formula.Text

def lineBreaks : List Nat :=
  [0xa, 0xb, 0xc, 0xd, 0x1c, 0x1d, 0x1e, 0x85, 0x2028, 0x2029]

def isLineBreak (c : Char) : Bool := lineBreaks.contains c.toNat

/-- The lines of a text; `current` holds the line being read, nearest character first. A break at the
very end opens no further line. -/
def linesAfter (current : List Char) : List Char → List (List Char)
  | [] => if current.isEmpty then [] else [current.reverse]
  | '\r' :: '\n' :: rest => current.reverse :: linesAfter [] rest
  | c :: rest =>
    if isLineBreak c then current.reverse :: linesAfter [] rest else linesAfter (c :: current) rest

def lines (cs : List Char) : List (List Char) := linesAfter [] cs

/-- The text with a line feed for every carriage return, alone or before a line feed. -/
def withLineFeeds : List Char → List Char
  | [] => []
  | '\r' :: '\n' :: rest => '\n' :: withLineFeeds rest
  | c :: rest => (if c = '\r' then '\n' else c) :: withLineFeeds rest

def lineOf (cs : List Char) (offset : Nat) : Nat := (cs.take offset).count '\n' + 1

/-- The column of an offset, from one: the characters since the last line feed. -/
def columnOf (cs : List Char) (offset : Nat) : Nat :=
  ((cs.take offset).reverse.takeWhile (· ≠ '\n')).length + 1

end Formula.Text
