import Formula.Failure
import Formula.Yaml.Graph
import Formula.Yaml.Token

/-! # Merging mappings

A mapping may take in the entries of others: an entry whose key has the tag for merging names one
mapping, or a sequence of them. What is taken in comes first, the mappings of a sequence the last one
first. Merging changes the mappings of a graph in place, so that each of them is merged once.
-/
namespace Formula.Yaml

abbrev Merging := StateT Graph (Except Failure)

namespace Merging

def node (n : Nat) : Merging Node := do return (← get).node n

def put (n : Nat) (node : Node) : Merging Unit := modify fun graph => graph.put n node

def putEntries (n : Nat) (entries : List Link) : Merging Unit := do
  match ← node n with
  | .mapping tag _ => put n (.mapping tag entries)
  | _ => return ()

def entriesAfter (merge : Nat → Merging Unit) (n : Nat) : Merging (List Link) := do
  match ← node n with
  | .mapping .. =>
    merge n
    return (← node n).entries
  | _ => throw (.malformed .yaml)

/-- The entries that a mapping takes in from the node that the value of a merging entry is. -/
def takenFrom (merge : Nat → Merging Unit) (n : Nat) : Merging (List Link) := do
  match ← node n with
  | .sequence _ items => do
    let parts ← items.mapM (entriesAfter merge)
    return parts.reverse.flatten
  | _ => entriesAfter merge n

/-- Merges the mapping `n`, entry after entry. `taken` holds what it takes in, and `passed` its own
entries so far, the latest first. A key that stands for the value of its mapping is a text like others.
A mapping that takes in itself has its other entries merged on the way. -/
def mergeEntries (merge : Nat → Merging Unit) (n : Nat) (taken passed : List Link) :
    List Link → Merging Unit
  | [] => putEntries n (taken ++ passed.reverse)
  | (key, value) :: rest => do
    let keyNode ← node key
    match keyNode.tag with
    | .merge =>
      let others := passed.reverse ++ rest
      putEntries n others
      let more ← takenFrom merge value
      let left := (← node n).entries
      if left = others then mergeEntries merge n (taken ++ more) passed rest
      else putEntries n (taken ++ more ++ left)
    | .value =>
      put key (keyNode.withTag .str)
      mergeEntries merge n taken ((key, value) :: passed) rest
    | _ => mergeEntries merge n taken ((key, value) :: passed) rest

def mergeWithin : (bound : Nat) → (n : Nat) → Merging Unit
  | 0, _ => return ()
  | bound + 1, n => do mergeEntries (mergeWithin bound) n [] [] (← node n).entries

/-- Merges the mapping `n`. Every level of merging uses up an entry, so their number is a bound. -/
def merge (n : Nat) : Merging Unit := do mergeWithin ((← get).entryCount + 1) n

end Merging

end Formula.Yaml
