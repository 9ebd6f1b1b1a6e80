import Formula.Value

/-! # The order of values

All values are ordered: null, then numbers, texts, lists and host objects. Numbers compare by value,
texts by code points, lists item by item, host objects by kind and text. Bindings and units make no
difference.
-/
namespace Formula.Value

def rank : Value → Nat
  | .null _ => 0
  | .number .. => 1
  | .text .. => 2
  | .list .. => 3
  | .host .. => 100

def compareText (a b : String) : Ordering := Ord.compare a b

mutual
def compare : Value → Value → Ordering
  | .number a _ _, .number b _ _ => a.compare b
  | .text a _, .text b _ => compareText a b
  | .list a _, .list b _ => compareItems a b
  | .host a _, .host b _ => (compareText a.kind b.kind).then (compareText a.text b.text)
  | a, b => Ord.compare a.rank b.rank
/-- The first difference decides; a list that ends before one appears is the lesser. -/
def compareItems : List Value → List Value → Ordering
  | [], [] => .eq
  | [], _ :: _ => .lt
  | _ :: _, [] => .gt
  | a :: as, b :: bs => (compare a b).then (compareItems as bs)
end

inductive Key where
  | rank (rank : Nat)
  | number (amount : Decimal)
  | text (content : String)
  | tuple (entries : List Key)

namespace Key

mutual
/-- Entries of different kinds are never asked for: the ranks before them differ. -/
def compare : Key → Key → Ordering
  | .rank m, .rank n => Ord.compare m n
  | .number a, .number b => a.compare b
  | .text a, .text b => compareText a b
  | .tuple as, .tuple bs => compareAll as bs
  | _, _ => .eq
def compareAll : List Key → List Key → Ordering
  | [], [] => .eq
  | [], _ :: _ => .lt
  | _ :: _, [] => .gt
  | a :: as, b :: bs => (compare a b).then (compareAll as bs)
end

end Key

mutual
/-- The key that a value is sorted by: its rank, and then what distinguishes values of this rank. -/
def sortKey : Value → Key
  | .null binding => .tuple [.rank (rank (.null binding))]
  | .number amount unit binding => .tuple [.rank (rank (.number amount unit binding)), .number amount]
  | .text content binding => .tuple [.rank (rank (.text content binding)), .text content]
  | .list items binding => .tuple [.rank (rank (.list items binding)), .tuple (sortKeys items)]
  | .host object binding =>
    .tuple [.rank (rank (.host object binding)), .text object.kind, .text object.text]
def sortKeys : List Value → List Key
  | [] => []
  | item :: items => item.sortKey :: sortKeys items
end

def greatest (best : Value) : List Value → Value
  | [] => best
  | value :: values => greatest (if compare best value == .lt then value else best) values

def least (best : Value) : List Value → Value
  | [] => best
  | value :: values => least (if compare value best == .lt then value else best) values

end Formula.Value
