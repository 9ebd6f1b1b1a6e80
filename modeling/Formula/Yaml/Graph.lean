import Formula.Yaml.Tag

/-! # The graph of a document

A document is made of nodes: scalars, sequences and mappings with their tags. Nodes are numbered, and
refer to their parts by number. So a node may be part of several others, and even of itself.
-/
namespace Formula.Yaml

abbrev Link := Nat × Nat

inductive Node where
  | scalar (tag : Tag) (content : String)
  | sequence (tag : Tag) (items : List Nat)
  | mapping (tag : Tag) (entries : List Link)
deriving DecidableEq

namespace Node

def empty : Node := .scalar .null ""

instance : Inhabited Node := ⟨empty⟩

def tag : Node → Tag
  | .scalar tag _ | .sequence tag _ | .mapping tag _ => tag

def withTag (tag : Tag) : Node → Node
  | .scalar _ content => .scalar tag content
  | .sequence _ items => .sequence tag items
  | .mapping _ entries => .mapping tag entries

def entries : Node → List Link
  | .mapping _ entries => entries
  | _ => []

end Node

abbrev Graph := Array Node

namespace Graph

def node (graph : Graph) (n : Nat) : Node := graph.getD n .empty

def put (graph : Graph) (n : Nat) (node : Node) : Graph := graph.setIfInBounds n node

def entryCount (graph : Graph) : Nat := graph.foldl (fun count node => count + node.entries.length) 0

end Graph

end Formula.Yaml
