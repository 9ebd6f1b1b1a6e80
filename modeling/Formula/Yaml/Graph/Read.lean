import Formula.Yaml.Graph
import Formula.Yaml.Token

/-! # Reading the graph of a document

The graph that the tokens of a document spell. An alias is one more reference to the node that its
anchor names. A collection has its number before its parts have theirs, so an alias among them may refer
to the collection itself.
-/
namespace Formula.Yaml

/-- What reading goes through: the tokens that are left, the nodes so far, what anchors name, what the
handles of tags stand for, and how many collections are open. -/
structure Reading where
  tokens : List Token
  nodes : Graph := #[]
  anchors : List (String × Nat) := []
  handles : List (String × String) := []
  depth : Nat := 0

abbrev Reader := StateT Reading (Except Failure)

namespace Reader

def standardHandles : List (String × String) := [("!", "!"), ("!!", Tag.standardStart)]

def depthBound : Nat := 480

def reject {α : Type} : Reader α := throw (.malformed .yaml)

def peek : Reader (Option Token) := do
  match (← get).tokens.head? with
  | some (.unreadable failure) => throw failure
  | token => return token

def skip : Reader Unit := modify fun reading => { reading with tokens := reading.tokens.drop 1 }

def skipIf (token : Token) : Reader Bool := do
  if (← peek) = some token then
    skip
    return true
  else return false

def expect (token : Token) : Reader Unit := do
  if !(← skipIf token) then reject

def isNext (tokens : List Token) : Reader Bool := do return (← peek).any tokens.contains

def tagName (handle : Option String) (rest : String) : Reader String := do
  match handle with
  | none => return rest
  | some handle =>
    match (← get).handles.lookup handle with
    | some start => return start ++ rest
    | none => reject

def anchor? : Reader (Option String) := do
  match ← peek with
  | some (.anchor name) =>
    skip
    return some name
  | _ => return none

def tag? : Reader (Option String) := do
  match ← peek with
  | some (.tag handle rest) =>
    skip
    return some (← tagName handle rest)
  | _ => return none

def properties : Reader (Option String × Option String) := do
  match ← anchor? with
  | some anchor => return (some anchor, ← tag?)
  | none => do
    let tag ← tag?
    return (← anchor?, tag)

/-- The tag that leaves the kind of a node open. -/
def openTag : String := "!"

def scalarTag (tag : Option String) (plain : Bool) (content : String) : Tag :=
  match tag with
  | none => if plain then .ofContent content else .str
  | some name => if name = openTag then .ofContent content else .ofName name

def collectionTag (tag : Option String) (standard : Tag) : Tag :=
  match tag with
  | none => standard
  | some name => if name = openTag then standard else .ofName name

/-- Gives a node the next number, and the name that its anchor says. No two nodes have one name. -/
def add (anchor : Option String) (node : Node) : Reader Nat := do
  let reading ← get
  let number := reading.nodes.size
  let reading := { reading with nodes := reading.nodes.push node }
  match anchor with
  | none =>
    set reading
    return number
  | some name =>
    if (reading.anchors.lookup name).isSome then reject
    else
      set { reading with anchors := (name, number) :: reading.anchors }
      return number

def empty : Reader Nat := add none .empty

def aliased (name : String) : Reader Nat := do
  match (← get).anchors.lookup name with
  | some number => return number
  | none => reject

def collection (anchor : Option String) (parts : Reader Node) : Reader Nat := do
  let number ← add anchor .empty
  let depth := (← get).depth
  if depthBound ≤ depth then throw (.endless "")
  else
    modify fun reading => { reading with depth := depth + 1 }
    let node ← parts
    modify fun reading => { reading with nodes := reading.nodes.put number node, depth }
    return number

/-- Reads a part, or takes an empty one where a token of `ends` comes next. -/
def partUnless (ends : List Token) (part : Reader Nat) : Reader Nat := do
  if ← isNext ends then empty else part

mutual
/-- A node. In `block` position it may be a block collection, and where `entries` are allowed a sequence
without an indentation of its own. -/
def node (block entries : Bool) : (bound : Nat) → Reader Nat
  | 0 => reject
  | bound + 1 => do
    match ← peek with
    | some (.alias anchor) =>
      skip
      aliased anchor
    | _ => do
      let (anchor, tag) ← properties
      let sequence (items : Reader (List Nat)) : Reader Nat :=
        collection anchor do return .sequence (collectionTag tag .seq) (← items)
      let mapping (entries : Reader (List Link)) : Reader Nat :=
        collection anchor do return .mapping (collectionTag tag .map) (← entries)
      match ← peek with
      | some (.scalar content plain) =>
        skip
        add anchor (.scalar (scalarTag tag plain content) content)
      | some .flowSequenceStart =>
        skip
        sequence (flowItems true [] bound)
      | some .flowMappingStart =>
        skip
        mapping (flowEntries true [] bound)
      | next =>
        if entries && next == some .blockEntry then sequence (looseItems [] bound)
        else if block && next == some .blockSequenceStart then
          skip
          sequence (blockItems [] bound)
        else if block && next == some .blockMappingStart then
          skip
          mapping (blockEntries [] bound)
        else if anchor.isSome || tag.isSome then add anchor (.scalar (scalarTag tag true "") "")
        else reject
def blockItems (found : List Nat) : (bound : Nat) → Reader (List Nat)
  | 0 => reject
  | bound + 1 => do
    if ← skipIf .blockEntry then
      let item ← partUnless [.blockEntry, .blockEnd] (node true false bound)
      blockItems (item :: found) bound
    else
      expect .blockEnd
      return found.reverse
def looseItems (found : List Nat) : (bound : Nat) → Reader (List Nat)
  | 0 => reject
  | bound + 1 => do
    if ← skipIf .blockEntry then
      let item ← partUnless [.blockEntry, .key, .value, .blockEnd] (node true false bound)
      looseItems (item :: found) bound
    else return found.reverse
def blockEntries (found : List Link) : (bound : Nat) → Reader (List Link)
  | 0 => reject
  | bound + 1 => do
    if ← skipIf .key then
      let ends := [.key, .value, .blockEnd]
      let key ← partUnless ends (node true true bound)
      let value ← if ← skipIf .value then partUnless ends (node true true bound) else empty
      blockEntries ((key, value) :: found) bound
    else
      expect .blockEnd
      return found.reverse
/-- The items of a flow sequence up to its end. An item with a colon is a mapping of one entry. -/
def flowItems (first : Bool) (found : List Nat) : (bound : Nat) → Reader (List Nat)
  | 0 => reject
  | bound + 1 => do
    if ← skipIf .flowSequenceEnd then return found.reverse
    else
      if !first then expect .flowEntry
      if ← skipIf .key then
        let item ← collection none do return .mapping .map [← flowPair .flowSequenceEnd bound]
        flowItems false (item :: found) bound
      else if ← isNext [.flowSequenceEnd] then flowItems true found bound
      else
        let item ← node false false bound
        flowItems false (item :: found) bound
/-- The entries of a flow mapping up to its end. A node alone is a key without a value. -/
def flowEntries (first : Bool) (found : List Link) : (bound : Nat) → Reader (List Link)
  | 0 => reject
  | bound + 1 => do
    if ← skipIf .flowMappingEnd then return found.reverse
    else
      if !first then expect .flowEntry
      if ← skipIf .key then
        let entry ← flowPair .flowMappingEnd bound
        flowEntries false (entry :: found) bound
      else if ← isNext [.flowMappingEnd] then flowEntries true found bound
      else
        let key ← node false false bound
        let value ← empty
        flowEntries false ((key, value) :: found) bound
def flowPair (ending : Token) : (bound : Nat) → Reader Link
  | 0 => reject
  | bound + 1 => do
    let key ← partUnless [.value, .flowEntry, ending] (node false false bound)
    let value ← if ← skipIf .value then partUnless [.flowEntry, ending] (node false false bound) else empty
    return (key, value)
end

def directives (version : Bool) (handles : List (String × String)) :
    (bound : Nat) → Reader (List (String × String))
  | 0 => reject
  | bound + 1 => do
    match ← peek with
    | some (.version major _) =>
      skip
      if version || major != 1 then reject else directives true handles bound
    | some (.handle handle start) =>
      skip
      if (handles.lookup handle).isSome then reject
      else directives version ((handle, start) :: handles) bound
    | some .directive =>
      skip
      directives version handles bound
    | _ => return handles

def isDirective : Token → Bool
  | .version .. | .handle .. | .directive => true
  | _ => false

def atDocumentBounds : Reader Bool := do
  return (← peek).any fun token =>
    isDirective token || token == .documentStart || token == .documentEnd || token == .streamEnd

/-- The rest of a text after its document: nothing but marks of ends. -/
def finish : (bound : Nat) → Reader Unit
  | 0 => reject
  | bound + 1 => do if ← skipIf .documentEnd then finish bound else expect .streamEnd

def document (bound : Nat) : Reader (Option Nat) := do
  if ← skipIf .streamEnd then return none
  else
    let marked := (← peek).any fun token => isDirective token || token == .documentStart
    if marked then
      let handles ← directives false [] bound
      expect .documentStart
      modify fun reading => { reading with handles := handles ++ standardHandles }
      let root ← if ← atDocumentBounds then empty else node true false bound
      finish bound
      return some root
    else
      modify fun reading => { reading with handles := standardHandles }
      let root ← node true false bound
      finish bound
      return some root

end Reader

def Graph.ofTokens (tokens : List Token) : Except Failure (Graph × Option Nat) := do
  let (root, reading) ← (Reader.document (4 * tokens.length + 8)).run { tokens }
  return (reading.nodes, root)

end Formula.Yaml
