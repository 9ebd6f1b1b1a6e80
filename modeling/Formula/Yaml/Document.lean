import Formula.Yaml.Content
import Formula.Yaml.Graph.Merge
import Formula.Yaml.Graph.Read
import Formula.Yaml.Token.Scan

/-! # YAML documents

The datum of a document. The nodes of its graph are gone through from the root on, collections in the
order in which they are met; the parts of a collection are met when it is its turn. Of entries with one
key the last wins.
-/
namespace Formula.Yaml

/-- What a node stands for, in terms of the nodes that are its parts. -/
inductive Meaning where
  /-- A datum without parts. All that are undefined by name are one key. -/
  | plain (datum : Datum) (isUndefined : Bool)
  | waiting
  | list (items : List Nat)
  | map (entries : List (Datum × Nat))
  | set (members : List Datum)
  | pairs (entries : List Link)
deriving Inhabited

/-- The meanings so far, by number, and the collections in the order in which they were met. -/
structure Course where
  meanings : Array (Option Meaning)
  collections : Array Nat := #[]

abbrev Interpreter := StateT Course Merging

namespace Interpreter

def reject {α : Type} : Interpreter α := throw (.malformed .yaml)

def node (n : Nat) : Interpreter Node := do return (← getThe Graph).node n

def give (n : Nat) (meaning : Meaning) : Interpreter Unit :=
  modify fun course => { course with meanings := course.meanings.setIfInBounds n (some meaning) }

/-- The content that a node has as a scalar. A mapping has that of the entry that stands for its
value. -/
def content : (bound : Nat) → (n : Nat) → Interpreter String
  | 0, _ => throw (.endless "")
  | bound + 1, n => do
    match ← node n with
    | .scalar _ content => return content
    | .sequence .. => reject
    | .mapping _ entries => do
      let graph ← getThe Graph
      match entries.find? fun (key, _) => (graph.node key).tag = .value with
      | some (_, value) => content bound value
      | none => reject

/-- What a node means that is no collection. Of times the content has to be the node's own. -/
def plain (n : Nat) : Interpreter Meaning := do
  let node ← node n
  let content ← content ((← getThe Graph).size + 1) n
  match node.tag, node with
  | .timestamp, .mapping .. => throw (.fault .wrongType)
  | tag, _ => return .plain (← Content.datum tag content) (tag = .float && Content.isUndefined content)

def isCollection (tag : Tag) : Bool := [.seq, .map, .set, .omap, .pairs].contains tag

def isUnknown : Tag → Bool
  | .merge | .value | .other _ => true
  | _ => false

def meet (n : Nat) : Interpreter Meaning := do
  match ((← get).meanings[n]?).join with
  | some meaning => return meaning
  | none => do
    let tag := (← node n).tag
    if isUnknown tag then reject
    else if isCollection tag then
      modify fun course => { course with collections := course.collections.push n }
      give n .waiting
      return .waiting
    else
      let meaning ← plain n
      give n meaning
      return meaning

structure Key where
  node : Nat
  datum : Datum
  isUndefined : Bool

def Key.isSame (a b : Key) : Bool :=
  a.node == b.node || (a.isUndefined && b.isUndefined) || a.datum.isSameKey b.datum

def putEntry (key : Key) (value : Nat) : List (Key × Nat) → List (Key × Nat)
  | [] => [(key, value)]
  | (other, old) :: entries =>
    if other.isSame key then (other, value) :: entries else (other, old) :: putEntry key value entries

def addEntry (entries : List (Key × Nat)) (entry : Link) : Interpreter (List (Key × Nat)) := do
  let (key, value) := entry
  match ← meet key with
  | .plain datum isUndefined => do
    let _ ← meet value
    return putEntry ⟨key, datum, isUndefined⟩ value entries
  | _ => reject

def table (n : Nat) : Interpreter (List (Datum × Nat)) := do
  Merging.merge n
  let entries ← (← node n).entries.foldlM addEntry []
  return entries.map fun (key, value) => (key.datum, value)

def pair (n : Nat) : Interpreter Link := do
  match ← node n with
  | .mapping _ [(key, value)] => do
    let _ ← meet key
    let _ ← meet value
    return (key, value)
  | _ => reject

def fill (n : Nat) : Interpreter Unit := do
  match ← node n with
  | .sequence .seq items => do
    for item in items do
      let _ ← meet item
    give n (.list items)
  | .sequence .omap items | .sequence .pairs items => do give n (.pairs (← items.mapM pair))
  | .mapping .map _ => do give n (.map (← table n))
  | .mapping .set _ => do give n (.set ((← table n).map (·.1)))
  | _ => reject

/-- Fills the collections from the `next` one on, those included that are met on the way. -/
def fillFrom (next : Nat) : (bound : Nat) → Interpreter Unit
  | 0 => return ()
  | bound + 1 => do
    match (← get).collections[next]? with
    | some n => do
      fill n
      fillFrom (next + 1) bound
    | none => return ()

end Interpreter

def Meaning.datum (part : Nat → Datum) : Meaning → Datum
  | .plain datum _ => datum
  | .waiting => .none
  | .list items => .list (items.map part)
  | .map entries => .map (entries.map fun (key, value) => (key, part value))
  | .set members => .set members
  | .pairs entries => .list (entries.map fun (key, value) => .tuple [part key, part value])

def Meaning.isMap : Meaning → Bool
  | .map _ => true
  | _ => false

/-- The datum of a node. A node of its own path, which lists the nodes around it, is marked. -/
def datumOf (meanings : Nat → Meaning) (path : List Nat) : (bound : Nat) → (n : Nat) → Datum
  | 0, _ => .none
  | bound + 1, n =>
    let meaning := meanings n
    if path.contains n then .cycle meaning.isMap else meaning.datum (datumOf meanings (n :: path) bound)

def Graph.datum (graph : Graph) (root : Nat) : Except Failure Datum := do
  let count := graph.size
  let interpretation := do
    let _ ← Interpreter.meet root
    Interpreter.fillFrom 0 count
  let start : Course := { meanings := Array.replicate count none }
  let ((_, course), _) ← (interpretation.run start).run graph
  let meanings (n : Nat) : Meaning := ((course.meanings[n]?).join).getD .waiting
  return (meanings root).datum (datumOf meanings [] (count + 1))

def read (text : String) : Except Failure Datum := do
  match ← Graph.ofTokens (scan text) with
  | (_, none) => return .none
  | (graph, some root) => graph.datum root

end Formula.Yaml
