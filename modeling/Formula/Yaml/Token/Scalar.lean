import Formula.Text.Integer
import Formula.Yaml.Cursor
import Formula.Yaml.Token

/-! # Scalars in a document

Plain, quoted and block scalars with the text they stand for. Lines are folded: one line break between
words counts as a space, and of several the first one does not count.
-/
namespace Formula.Yaml.Scalar

/-- What a line break counts for, before the breaks of empty lines that follow it. -/
def folded (first : Char) (more : List Char) : List Char :=
  if first ≠ '\n' then first :: more else if more.isEmpty then [' '] else more

/-! ## Plain scalars -/

def flowIndicators : List Char := [',', '[', ']', '\x7b', '\x7d']

def plainLength (inFlow : Bool) : List Char → Nat
  | [] => 0
  | c :: cs =>
    if endsIndicator (some c) then 0
    else if c == ':' && (endsIndicator cs.head? || (inFlow && cs.head?.any flowIndicators.contains)) then 0
    else if inFlow && (c == '?' || flowIndicators.contains c) then 0
    else plainLength inFlow cs + 1

/-- Passes spaces and line breaks and collects the breaks; there are none before a document mark.
`breaks` holds those so far, the latest first. -/
def plainBreaks (breaks : List Char) (cursor : Cursor) : (bound : Nat) → Option (List Char) × Cursor
  | 0 => (some breaks.reverse, cursor)
  | bound + 1 =>
    if cursor.peek = some ' ' then plainBreaks breaks cursor.advance bound
    else
      match cursor.lineBreak? with
      | none => (some breaks.reverse, cursor)
      | some (ending, cursor) =>
        if cursor.atDocumentMark then (none, cursor) else plainBreaks (ending :: breaks) cursor bound

/-- The blanks after a part of a plain scalar as they count if it goes on; empty if it cannot. Also
tells whether a line ended. -/
def plainSpaces (cursor : Cursor) : List Char × Cursor × Bool :=
  let (spaces, after) := cursor.span (· == ' ')
  match after.lineBreak? with
  | none => (spaces, after, false)
  | some (ending, next) =>
    if next.atDocumentMark then ([], next, true)
    else
      match plainBreaks [] next next.rest.length with
      | (none, next) => ([], next, true)
      | (some breaks, next) => (folded ending breaks, next, true)

/-- The parts of a plain scalar. `content` holds the characters so far, the latest first, and `spaces`
what counts between them and the next part. -/
def plainFrom (inFlow : Bool) (indent : Int) (content spaces : List Char) (lineEnded : Bool)
    (cursor : Cursor) : (bound : Nat) → List Char × Cursor × Bool
  | 0 => (content, cursor, lineEnded)
  | bound + 1 =>
    let length := plainLength inFlow cursor.rest
    if cursor.peek = some '#' ∨ length = 0 then (content, cursor, lineEnded)
    else
      let content := (cursor.rest.take length).reverse ++ (spaces.reverse ++ content)
      let (spaces, cursor, lineEnded) := plainSpaces (cursor.skip length)
      if spaces.isEmpty ∨ (!inFlow && decide ((cursor.column : Int) < indent)) then
        (content, cursor, lineEnded)
      else plainFrom inFlow indent content spaces lineEnded cursor bound

def plain (inFlow : Bool) (indent : Int) (cursor : Cursor) : String × Cursor × Bool :=
  let (content, cursor, lineEnded) := plainFrom inFlow indent [] [] false cursor (cursor.rest.length + 1)
  (String.ofList content.reverse, cursor, lineEnded)

/-! ## Quoted scalars -/

def escapes : List (Char × Char) :=
  [('0', '\x00'), ('a', '\x07'), ('b', '\x08'), ('t', '\t'), ('\t', '\t'), ('n', '\n'), ('v', '\x0b'),
   ('f', '\x0c'), ('r', '\r'), ('e', '\x1b'), (' ', ' '), ('"', '"'), ('\\', '\\'), ('/', '/'),
   ('N', '\u0085'), ('_', '\u00a0'), ('L', '\u2028'), ('P', '\u2029')]

def codeLengths : List (Char × Nat) := [('x', 2), ('u', 4), ('U', 8)]

def code? (digits : List Char) (length : Nat) : Option Nat :=
  if digits.length = length ∧ digits.all (fun c => c.toNat < 128 && (Text.baseDigit? 16 c).isSome) then
    Text.baseDigits? 16 0 false digits
  else none

def wordBound : Nat := twoTo 31

def coded (code : Nat) : Except Failure Char :=
  if wordBound ≤ code then .error (.tooLarge "Python int too large to convert to C int")
  else if 0x110000 ≤ code then .error (.invalid "chr() arg not in range(0x110000)")
  else if code.isValidChar then .ok (Char.ofNat code)
  else malformed

/-- Passes the blanks and breaks of the lines after a break and collects the breaks. No document may
start or end inside of quotes. -/
def quotedBreaks (breaks : List Char) (cursor : Cursor) : (bound : Nat) → Option (List Char × Cursor)
  | 0 => none
  | bound + 1 =>
    if cursor.atDocumentMark then none
    else
      let cursor := cursor.skipWhile fun c => c == ' ' || c == '\t'
      match cursor.lineBreak? with
      | none => some (breaks.reverse, cursor)
      | some (ending, cursor) => quotedBreaks (ending :: breaks) cursor bound

/-- Blanks in quotes as they count; at the end of a line they do not. -/
def quotedBlanks (cursor : Cursor) : Option (List Char × Cursor) :=
  let (blanks, after) := cursor.span fun c => c == ' ' || c == '\t'
  if after.rest.isEmpty then none
  else
    match after.lineBreak? with
    | none => some (blanks, after)
    | some (ending, next) => do
      let (breaks, next) ← quotedBreaks [] next (next.rest.length + 1)
      return (folded ending breaks, next)

/-- An escape, after its backslash. An escaped line break and the blanks after it do not count. -/
def escape (cursor : Cursor) : Except Failure (List Char × Cursor) := do
  let c ← required cursor.peek
  match escapes.lookup c with
  | some character => return ([character], cursor.advance)
  | none =>
    match codeLengths.lookup c with
    | some length =>
      let cursor := cursor.advance
      let character ← coded (← required (code? (cursor.rest.take length) length))
      return ([character], cursor.skip length)
    | none =>
      let (_, next) ← required cursor.lineBreak?
      required (quotedBreaks [] next (next.rest.length + 1))

def quotedFrom (quote : Char) (content : List Char) (cursor : Cursor) :
    (bound : Nat) → Except Failure (String × Cursor)
  | 0 => malformed
  | bound + 1 =>
    match cursor.rest with
    | [] => malformed
    | c :: rest =>
      if c = quote then
        if c = '\'' ∧ rest.head? = some '\'' then quotedFrom quote ('\'' :: content) (cursor.skip 2) bound
        else .ok (String.ofList content.reverse, cursor.advance)
      else if c = '\\' ∧ quote = '"' then do
        let (characters, cursor) ← escape cursor.advance
        quotedFrom quote (characters.reverse ++ content) cursor bound
      else if c == '\t' || endsWord (some c) then do
        let (characters, cursor) ← required (quotedBlanks cursor)
        quotedFrom quote (characters.reverse ++ content) cursor bound
      else quotedFrom quote (c :: content) cursor.advance bound

def quoted (quote : Char) (cursor : Cursor) : Except Failure (String × Cursor) :=
  quotedFrom quote [] cursor.advance (cursor.rest.length + 1)

/-! ## Block scalars -/

/-- What becomes of the line breaks at the end of a block scalar. -/
inductive Chomping where
  | strip
  | clip
  | keep
deriving DecidableEq

def blockHeader (cursor : Cursor) : Option (Chomping × Option Nat × Cursor) :=
  let chomping? (cursor : Cursor) : Option Chomping × Cursor :=
    match cursor.peek with
    | some '+' => (some .keep, cursor.advance)
    | some '-' => (some .strip, cursor.advance)
    | _ => (none, cursor)
  let digit? (cursor : Cursor) : Option Nat × Cursor :=
    match cursor.peek with
    | some c => if Text.isAsciiDigit c then (some (c.toNat - '0'.toNat), cursor.advance) else (none, cursor)
    | none => (none, cursor)
  let (before, cursor) := chomping? cursor
  let (increment, cursor) := digit? cursor
  let (chomping, cursor) :=
    if before.isNone ∧ increment.isSome then chomping? cursor else (before, cursor)
  if increment = some 0 ∨ !endsWord cursor.peek then none
  else some (chomping.getD .clip, increment, cursor)

def lineRest (cursor : Cursor) : Option Cursor :=
  let cursor := cursor.skipSpaces
  let cursor := if cursor.peek = some '#' then cursor.lineText.2 else cursor
  if endsLine cursor.peek then
    match cursor.lineBreak? with
    | some (_, cursor) => some cursor
    | none => some cursor
  else none

/-- Passes empty lines and the indentation of the first other line; also gives the greatest column. -/
def blockStart (breaks : List Char) (deepest : Nat) (cursor : Cursor) :
    (bound : Nat) → List Char × Nat × Cursor
  | 0 => (breaks.reverse, deepest, cursor)
  | bound + 1 =>
    if cursor.peek = some ' ' then
      let cursor := cursor.advance
      blockStart breaks (max deepest cursor.column) cursor bound
    else
      match cursor.lineBreak? with
      | some (ending, cursor) => blockStart (ending :: breaks) deepest cursor bound
      | none => (breaks.reverse, deepest, cursor)

def skipIndent (indent : Nat) (cursor : Cursor) : Cursor :=
  cursor.skip ((cursor.rest.take (indent - cursor.column)).takeWhile (· == ' ')).length

def blockBreaks (indent : Nat) (breaks : List Char) (cursor : Cursor) :
    (bound : Nat) → List Char × Cursor
  | 0 => (breaks.reverse, cursor)
  | bound + 1 =>
    let cursor := skipIndent indent cursor
    match cursor.lineBreak? with
    | some (ending, cursor) => blockBreaks indent (ending :: breaks) cursor bound
    | none => (breaks.reverse, cursor)

def startsBlank (cursor : Cursor) : Bool := cursor.peek == some ' ' || cursor.peek == some '\t'

/-- The lines of a block scalar. `content` holds the characters so far, the latest first, and `breaks`
the breaks of the empty lines before this one. Gives the content, the last line's break and the breaks
of the empty lines after it. -/
def blockLines (foldsLines : Bool) (indent : Nat) (content breaks ending : List Char) (cursor : Cursor) :
    (bound : Nat) → List Char × List Char × List Char × Cursor
  | 0 => (content, ending, breaks, cursor)
  | bound + 1 =>
    if cursor.column = indent ∧ !cursor.rest.isEmpty then
      let (line, after) := cursor.lineText
      let content := line.reverse ++ (breaks.reverse ++ content)
      let (ending, next) :=
        match after.lineBreak? with
        | some (ending, next) => ([ending], next)
        | none => ([], after)
      let (breaks, next) := blockBreaks indent [] next (next.rest.length + 1)
      if next.column = indent ∧ !next.rest.isEmpty then
        let joint :=
          if foldsLines && ending == ['\n'] && !startsBlank cursor && !startsBlank next then
            if breaks.isEmpty then [' '] else []
          else ending
        blockLines foldsLines indent (joint ++ content) breaks ending next bound
      else (content, ending, breaks, next)
    else (content, ending, breaks, cursor)

def block (foldsLines : Bool) (parent : Int) (cursor : Cursor) : Option (String × Cursor) := do
  let (chomping, increment, cursor) ← blockHeader cursor.advance
  let cursor ← lineRest cursor
  let least := (max 1 (parent + 1)).toNat
  let bound := cursor.rest.length + 1
  let (indent, breaks, cursor) :=
    match increment with
    | none =>
      let (breaks, deepest, cursor) := blockStart [] 0 cursor bound
      (max least deepest, breaks, cursor)
    | some n =>
      let indent := least + n - 1
      let (breaks, cursor) := blockBreaks indent [] cursor bound
      (indent, breaks, cursor)
  let (content, ending, breaks, cursor) := blockLines foldsLines indent [] breaks [] cursor bound
  let ending := if chomping = .strip then [] else ending
  let breaks := if chomping = .keep then breaks else []
  return (String.ofList (content.reverse ++ ending ++ breaks), cursor)

end Formula.Yaml.Scalar
