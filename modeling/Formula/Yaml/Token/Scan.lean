import Formula.Yaml.Token
import Formula.Yaml.Token.Scalar

/-! # Scanning a document into tokens

Indentation opens and closes block collections. A key is recognised only at its colon, so the places
where one may have begun are remembered: such a key lies on one line and is not long.
-/
namespace Formula.Yaml

/-- A place where a key may have begun: how many tokens were before it. A required key has to turn out
to be one. -/
structure PossibleKey where
  before : Nat
  required : Bool
  line : Nat
  column : Nat
  index : Nat

structure Scanner where
  cursor : Cursor
  /-- The tokens so far, the latest first. -/
  found : List Token := []
  count : Nat := 0
  /-- The column of the innermost block collection; minus one outside of all. -/
  indent : Int := -1
  outerIndents : List Int := []
  /-- How many flow collections are open. -/
  depth : Nat := 0
  /-- A key may begin here without an indicator. -/
  keyAllowed : Bool := true
  /-- Possible keys by the number of open flow collections. -/
  keys : List (Nat × PossibleKey) := []

namespace Scanner

def keyBound : Nat := 1024

def inFlow (s : Scanner) : Bool := decide (0 < s.depth)

def add (s : Scanner) (token : Token) : Scanner :=
  { s with found := token :: s.found, count := s.count + 1 }

def insert (s : Scanner) (before : Nat) (token : Token) : Scanner :=
  let later := s.count - before
  { s with found := s.found.take later ++ token :: s.found.drop later, count := s.count + 1 }

/-- Drops possible keys that end of line or length rules out. -/
def dropStaleKeys (s : Scanner) : Option Scanner :=
  let isStale (key : PossibleKey) : Bool :=
    key.line != s.cursor.line || decide (keyBound < s.cursor.index - key.index)
  if s.keys.any fun (_, key) => isStale key && key.required then none
  else some { s with keys := s.keys.filter fun (_, key) => !isStale key }

def dropKey (s : Scanner) : Option Scanner :=
  match s.keys.lookup s.depth with
  | none => some s
  | some key =>
    if key.required then none else some { s with keys := s.keys.filter fun (depth, _) => depth != s.depth }

def saveKey (s : Scanner) : Option Scanner :=
  if s.keyAllowed then do
    let s ← s.dropKey
    let required := !s.inFlow && s.indent == (s.cursor.column : Int)
    let key : PossibleKey := ⟨s.count, required, s.cursor.line, s.cursor.column, s.cursor.index⟩
    return { s with keys := (s.depth, key) :: s.keys }
  else some s

def closeBlocks (s : Scanner) (column : Int) : List Int → Scanner
  | [] => s
  | outer :: outers =>
    if column < s.indent then
      closeBlocks { s.add .blockEnd with indent := outer, outerIndents := outers } column outers
    else s

/-- Closes the block collections to the right of `column`. Flow collections keep them open. -/
def unwind (s : Scanner) (column : Int) : Scanner :=
  if s.inFlow then s else s.closeBlocks column s.outerIndents

def openBlock (s : Scanner) (column before : Nat) (token : Token) : Scanner :=
  if s.indent < (column : Int) then
    { s.insert before token with indent := column, outerIndents := s.indent :: s.outerIndents }
  else s

def skipBlanks (s : Scanner) : (bound : Nat) → Scanner
  | 0 => s
  | bound + 1 =>
    let cursor := s.cursor.skipSpaces
    let cursor := if cursor.peek = some '#' then cursor.lineText.2 else cursor
    match cursor.lineBreak? with
    | some (_, cursor) =>
      skipBlanks { s with cursor, keyAllowed := s.keyAllowed || !s.inFlow } bound
    | none => { s with cursor }

/-! ## Directives, anchors and tags -/

def isNameChar (c : Char) : Bool :=
  decide ('0' ≤ c) && decide (c ≤ '9') || decide ('A' ≤ c) && decide (c ≤ 'Z') ||
    decide ('a' ≤ c) && decide (c ≤ 'z') || c == '-' || c == '_'

def nameAt (cursor : Cursor) : Option (String × Cursor) :=
  let (name, after) := cursor.span isNameChar
  if name.isEmpty then none else some (String.ofList name, after)

def numberAt (cursor : Cursor) : Option (Nat × Cursor) := do
  let (digits, after) := cursor.span Text.isAsciiDigit
  return (← Text.digitsValue? digits, after)

def handleAt (cursor : Cursor) : Option (String × Cursor) :=
  match cursor.rest with
  | '!' :: ' ' :: _ => some ("!", cursor.advance)
  | '!' :: _ =>
    let (name, after) := cursor.advance.span isNameChar
    if after.peek = some '!' then some ("!" ++ String.ofList name ++ "!", after.advance) else none
  | _ => none

def isAddressChar (c : Char) : Bool := isNameChar c || ";/?:@&=+$,.!~*'()[]".toList.contains c

def escapedBytes (bytes : List UInt8) : List Char → Option (List UInt8)
  | [] => some bytes.reverse
  | '%' :: high :: low :: rest => do
    let byte ← Scalar.code? [high, low] 2
    escapedBytes (byte.toUInt8 :: bytes) rest
  | _ => none

def escapeRun : List Char → List Char
  | '%' :: high :: low :: rest => '%' :: high :: low :: escapeRun rest
  | '%' :: rest => '%' :: rest
  | _ => []

/-- The address at the start of a tag: address characters and percent escapes. -/
def addressFrom (content : String) (cursor : Cursor) : (bound : Nat) → Option (String × Cursor)
  | 0 => none
  | bound + 1 =>
    if cursor.peek = some '%' then do
      let run := escapeRun cursor.rest
      let bytes ← escapedBytes [] run
      let text ← String.fromUTF8? ⟨bytes.toArray⟩
      addressFrom (content ++ text) (cursor.skip run.length) bound
    else
      let (characters, after) := cursor.span isAddressChar
      if characters.isEmpty then if content.isEmpty then none else some (content, cursor)
      else addressFrom (content ++ String.ofList characters) after bound

def addressAt (cursor : Cursor) : Option (String × Cursor) := addressFrom "" cursor (cursor.rest.length + 2)

def directiveAt (cursor : Cursor) : Option (Token × Cursor) := do
  let (name, cursor) ← nameAt cursor.advance
  if !endsWord cursor.peek then none
  else if name = "YAML" then do
    let (major, cursor) ← numberAt cursor.skipSpaces
    if cursor.peek ≠ some '.' then none
    else do
      let (minor, cursor) ← numberAt cursor.advance
      if !endsWord cursor.peek then none
      else return (.version major minor, ← Scalar.lineRest cursor)
  else if name = "TAG" then do
    let (handle, cursor) ← handleAt cursor.skipSpaces
    if cursor.peek ≠ some ' ' then none
    else do
      let (start, cursor) ← addressAt cursor.skipSpaces
      if !endsWord cursor.peek then none
      else return (.handle handle start, ← Scalar.lineRest cursor)
  else return (.directive, ← Scalar.lineRest cursor.lineText.2)

def anchorAt (cursor : Cursor) : Option (String × Cursor) := do
  let (name, cursor) ← nameAt cursor.advance
  let follows := "?:,]\x7d%@".toList ++ [Char.ofNat 0x60]
  if endsIndicator cursor.peek || cursor.peek.any follows.contains then some (name, cursor) else none

def hasHandle (cursor : Cursor) : Bool :=
  (cursor.rest.drop 1).takeWhile (fun c => !endsWord (some c)) |>.contains '!'

/-- A tag: an address in angle brackets, an exclamation mark alone, or a handle and an address. -/
def tagAt (cursor : Cursor) : Option (Token × Cursor) := do
  let (token, cursor) ←
    if cursor.peekAt 1 = some '<' then do
      let (address, cursor) ← addressAt (cursor.skip 2)
      if cursor.peek = some '>' then some (Token.tag none address, cursor.advance) else none
    else if endsIndicator (cursor.peekAt 1) then some (Token.tag none "!", cursor.advance)
    else do
      let (handle, cursor) ← if hasHandle cursor then handleAt cursor else some ("!", cursor.advance)
      let (address, cursor) ← addressAt cursor
      some (Token.tag (some handle) address, cursor)
  if endsWord cursor.peek then some (token, cursor) else none

/-! ## Single tokens -/

def take (s : Scanner) (token : Token) : Scanner := { s.add token with cursor := s.cursor.advance }

def atMargin (s : Scanner) : Option Scanner := do
  let s ← (s.unwind (-1)).dropKey
  return { s with keyAllowed := false }

def openFlow (s : Scanner) (token : Token) : Option Scanner := do
  let s ← s.saveKey
  return { s.take token with depth := s.depth + 1, keyAllowed := true }

def closeFlow (s : Scanner) (token : Token) : Option Scanner := do
  let s ← s.dropKey
  if s.depth = 0 then none else return { s.take token with depth := s.depth - 1, keyAllowed := false }

def flowEntry (s : Scanner) : Option Scanner := do
  let s ← s.dropKey
  return { s.take .flowEntry with keyAllowed := true }

def beginBlock (s : Scanner) (token : Token) : Option Scanner :=
  if s.inFlow then some s
  else if s.keyAllowed then some (s.openBlock s.cursor.column s.count token)
  else none

def blockEntry (s : Scanner) : Option Scanner := do
  let s ← s.beginBlock .blockSequenceStart
  let s ← s.dropKey
  return { s.take .blockEntry with keyAllowed := true }

def key (s : Scanner) : Option Scanner := do
  let s ← s.beginBlock .blockMappingStart
  let s ← s.dropKey
  return { s.take .key with keyAllowed := !s.inFlow }

/-- A colon. If a key may have begun before it, it has. -/
def value (s : Scanner) : Option Scanner :=
  match s.keys.lookup s.depth with
  | some found =>
    let s := { s with keys := s.keys.filter fun (depth, _) => depth != s.depth }
    let s := s.insert found.before .key
    let s := if s.inFlow then s else s.openBlock found.column found.before .blockMappingStart
    some { s.take .value with keyAllowed := false }
  | none => do
    let s ← s.beginBlock .blockMappingStart
    let s ← s.dropKey
    return { s.take .value with keyAllowed := !s.inFlow }

/-- A token that may begin a key but allows none right after it. -/
def lead (s : Scanner) (read : Cursor → Except Failure (Token × Cursor)) : Except Failure Scanner := do
  let s ← required s.saveKey
  let (token, cursor) ← read s.cursor
  return { s.add token with cursor, keyAllowed := false }

def plainScalar (s : Scanner) : Option Scanner := do
  let s ← s.saveKey
  let (content, cursor, lineEnded) := Scalar.plain s.inFlow (s.indent + 1) s.cursor
  return { s.add (.scalar content true) with cursor, keyAllowed := lineEnded }

def blockScalar (s : Scanner) (foldsLines : Bool) : Option Scanner := do
  let s ← s.dropKey
  let (content, cursor) ← Scalar.block foldsLines s.indent s.cursor
  return { s.add (.scalar content false) with cursor, keyAllowed := true }

def indicators : List Char := "-?:,[]\x7b\x7d#&*!|>'\"%@".toList ++ [Char.ofNat 0x60]

def beginsPlain (s : Scanner) (c : Char) : Bool :=
  (!endsIndicator (some c) && !indicators.contains c) ||
    (!endsIndicator (s.cursor.peekAt 1) && (c == '-' || (!s.inFlow && (c == '?' || c == ':'))))

def named (token : String → Token) (cursor : Cursor) : Except Failure (Token × Cursor) :=
  (required (anchorAt cursor)).map fun (name, cursor) => (token name, cursor)

def margin (s : Scanner) (c : Char) : Option Scanner := do
  let s ← s.atMargin
  if c = '%' then
    let (token, cursor) ← directiveAt s.cursor
    return { s.add token with cursor }
  else return { s.add (if c = '-' then .documentStart else .documentEnd) with cursor := s.cursor.skip 3 }

def token (s : Scanner) (c : Char) : Except Failure Scanner :=
  let alone := endsIndicator (s.cursor.peekAt 1)
  if s.cursor.column = 0 ∧ (c = '%' ∨ s.cursor.atDocumentMark) then required (s.margin c)
  else if c = '[' then required (s.openFlow .flowSequenceStart)
  else if c = '\x7b' then required (s.openFlow .flowMappingStart)
  else if c = ']' then required (s.closeFlow .flowSequenceEnd)
  else if c = '\x7d' then required (s.closeFlow .flowMappingEnd)
  else if c = ',' then required s.flowEntry
  else if c = '-' ∧ alone then required s.blockEntry
  else if c = '?' ∧ (s.inFlow ∨ alone) then required s.key
  else if c = ':' ∧ (s.inFlow ∨ alone) then required s.value
  else if c = '*' then s.lead (named .alias)
  else if c = '&' then s.lead (named .anchor)
  else if c = '!' then s.lead fun cursor => required (tagAt cursor)
  else if c = '|' ∧ !s.inFlow then required (s.blockScalar false)
  else if c = '>' ∧ !s.inFlow then required (s.blockScalar true)
  else if c = '\'' ∨ c = '"' then
    s.lead fun cursor =>
      (Scalar.quoted c cursor).map fun (content, cursor) => (.scalar content false, cursor)
  else if s.beginsPlain c then required s.plainScalar
  else malformed

/-- The next token, after the ends of the blocks that end here. Nothing is left after the last token. -/
def next (s : Scanner) : Except Failure (Scanner × Bool) := do
  let s := s.skipBlanks (s.cursor.rest.length + 1)
  let s ← required s.dropStaleKeys
  let s := s.unwind s.cursor.column
  match s.cursor.peek with
  | none => do
    let s ← required (s.unwind (-1)).dropKey
    return (s.add .streamEnd, false)
  | some c => return (← s.token c, true)

/-- The tokens that are settled: those before the first place where a key may still turn out to begin. -/
def settled (s : Scanner) : List Token :=
  let open? := s.dropStaleKeys.map fun s => s.keys.map fun (_, key) => key.before
  let count := (open?.getD []).foldl min s.count
  s.found.reverse.take count

def steps (s : Scanner) : (bound : Nat) → List Token
  | 0 => s.settled ++ [.unreadable (.malformed .yaml)]
  | bound + 1 =>
    match s.next with
    | .ok (s, true) => s.steps bound
    | .ok (s, false) => s.found.reverse
    | .error failure => s.settled ++ [.unreadable failure]

end Scanner

def isDocumentChar (c : Char) : Bool :=
  c == '\t' || c == '\n' || c == '\r' || c == '\u0085' || (' ' ≤ c && c ≤ '~') ||
    (0xa0 ≤ c.toNat && c.toNat ≤ 0xfffd) || 0x10000 ≤ c.toNat

def scan (text : String) : List Token :=
  let characters := text.toList
  if characters.all isDocumentChar then
    let start : Cursor := ⟨characters, 0, 0, 0⟩
    let start := if start.peek = some orderMark then start.advance else start
    Scanner.steps { cursor := start } (characters.length + 2)
  else [.unreadable (.malformed .yaml)]

end Formula.Yaml
