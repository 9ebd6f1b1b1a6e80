import Formula.Binary64.Shortest
import Formula.Environment
import Formula.Value.Order

/-! # Plain data

Data that hosts and documents exchange with expressions: nothing, truth, integers, doubles, decimals,
texts, sequences and mappings in order. Values, deferred entries and things without a value of their own
may occur among them. Data are trees; where a part would be what it is a part of, a mark stands for it.
-/
namespace Formula

inductive Datum where
  | none
  | bool (flag : Bool)
  | int (n : Int)
  | float (x : Float)
  | decimal (d : Decimal)
  | text (s : String)
  | list (items : List Datum)
  | tuple (items : List Datum)
  | map (entries : List (Datum × Datum))
  | value (v : Value)
  | deferred (entry : Entry)
  | bytes (content : List UInt8)
  | set (items : List Datum)
  /-- Stands for a list or mapping around it. -/
  | cycle (mapping : Bool)
  /-- Anything else, known by its kind only. -/
  | object (kind : String)
deriving Inhabited

namespace Datum

def kind : Datum → String
  | .none => "NoneType"
  | .bool _ => "bool"
  | .int _ => "int"
  | .float _ => "float"
  | .decimal _ => "Decimal"
  | .text _ => "str"
  | .list _ => "list"
  | .tuple _ => "tuple"
  | .map _ => "dict"
  | .value v => v.kind
  | .deferred entry => if entry.source.constant?.isSome then "ConstantLazyValue" else "LazyValue"
  | .bytes _ => "bytes"
  | .set _ => "set"
  | .cycle mapping => if mapping then "dict" else "list"
  | .object kind => kind

def spelledTuple : List String → String
  | [item] => "(" ++ item ++ ",)"
  | items => "(" ++ ", ".intercalate items ++ ")"

mutual
def spelled : Datum → String
  | .none => "None"
  | .bool flag => if flag then "True" else "False"
  | .int n => toString n
  | .float x => Binary64.text x
  | .decimal d => "Decimal(" ++ Text.quoted d.text ++ ")"
  | .text s => Text.quoted s
  | .list items => "[" ++ ", ".intercalate (spelledItems items) ++ "]"
  | .tuple items => spelledTuple (spelledItems items)
  | .map entries => "\x7b" ++ ", ".intercalate (spelledEntries entries) ++ "\x7d"
  | .value v => v.spelled
  | .deferred entry => entry.spelled
  | .bytes content => Text.quotedBytes content
  | .set items =>
    if items.isEmpty then "set()" else "\x7b" ++ ", ".intercalate (spelledItems items) ++ "\x7d"
  | .cycle mapping => if mapping then "\x7b...\x7d" else "[...]"
  | .object kind => "<" ++ kind ++ " object>"
def spelledItems : List Datum → List String
  | [] => []
  | item :: items => item.spelled :: spelledItems items
def spelledEntries : List (Datum × Datum) → List String
  | [] => []
  | (key, entry) :: entries => (key.spelled ++ ": " ++ entry.spelled) :: spelledEntries entries
end

def display : Datum → String
  | .text s => s
  | .decimal d => d.text
  | .value v => v.string
  | other => other.spelled

def truth : Datum → Bool
  | .none => false
  | .bool flag => flag
  | .int n => n != 0
  | .float x => x != 0
  | .decimal d => !d.isZero
  | .text s => !s.isEmpty
  | .list items | .tuple items => !items.isEmpty
  | .map entries => !entries.isEmpty
  | .bytes content => !content.isEmpty
  | .set items => !items.isEmpty
  | .value (.list items _) => !items.isEmpty
  | .value _ | .deferred _ | .cycle _ | .object _ => true

def ofNumber (context : Option Context) (number : Decimal) : Except Failure Value :=
  match context with
  | Option.none => .ok (.ofDecimal number)
  | some context => (context.round number).map .ofDecimal |>.mapError .numeric

def prepend (value : Except Failure Value) (values : Except Failure (List Value)) :
    Except Failure (List Value) := do
  let first ← value
  let rest ← values
  return first :: rest

mutual
/-- The value of a datum. Mappings become lists of pairs of a key's text and a value. -/
def toValue (context : Option Context) : Datum → Except Failure Value
  | .none => .ok (.null Option.none)
  | .bool flag => .ok (.ofBool flag)
  | .int n => ofNumber context (.ofInt n)
  | .float x =>
    match Binary64.toDecimal? x with
    | Option.none => .error (.of (.notFinite (Binary64.text x)))
    | some number => ofNumber context number
  | .decimal d => ofNumber context d
  | .text s => .ok (.text s Option.none)
  | .list items | .tuple items => (toValues context items).map fun values => .list values Option.none
  | .map entries => (toPairs context entries).map fun pairs => .list pairs Option.none
  | .value v => .ok v
  | .deferred entry => .error (.of (.inconvertible (Datum.deferred entry).kind))
  | .bytes content => .error (.of (.inconvertible (Datum.bytes content).kind))
  | .set items => .error (.of (.inconvertible (Datum.set items).kind))
  | .cycle _ => .error (.endless " in comparison")
  | .object kind => .error (.of (.inconvertible kind))
def toValues (context : Option Context) : List Datum → Except Failure (List Value)
  | [] => .ok []
  | item :: items => prepend (item.toValue context) (toValues context items)
def toPairs (context : Option Context) : List (Datum × Datum) → Except Failure (List Value)
  | [] => .ok []
  | (key, entry) :: entries =>
    prepend
      ((entry.toValue context).map fun v => .list [.text key.display Option.none, v] Option.none)
      (toPairs context entries)
end

mutual
/-- The plain datum of a value. Whole numbers become integers, other numbers doubles, and host objects
their texts. -/
def ofValue : Value → Datum
  | .null _ => .none
  | .number amount _ _ =>
    if amount.isIntegral then .int amount.truncate else .float (Binary64.ofDecimal amount)
  | .text content _ => .text content
  | .list items _ => .list (ofValues items)
  | .host thing _ => .text thing.text
def ofValues : List Value → List Datum
  | [] => []
  | v :: vs => ofValue v :: ofValues vs
end

mutual
def isKey : Datum → Bool
  | .list _ | .map _ | .set _ | .cycle _ => false
  | .tuple items => areKeys items
  | _ => true
def areKeys : List Datum → Bool
  | [] => true
  | item :: items => item.isKey && areKeys items
end

def numeral? : Datum → Option Decimal
  | .bool flag => some (.ofNat (if flag then 1 else 0))
  | .int n => some (.ofInt n)
  | .decimal d => some d
  | .float x =>
    match Binary64.decode x with
    | .finite negative mantissa exponent =>
      if 0 ≤ exponent then some ⟨negative, mantissa * twoTo exponent.toNat, 0⟩
      else some ⟨negative, mantissa * Nat.pow 5 (-exponent).toNat, exponent⟩
    | _ => Option.none
  | _ => Option.none

mutual
/-- Two data are one key: numbers of one value are, whatever their kinds. -/
def isSameKey : Datum → Datum → Bool
  | .none, .none => true
  | .text s, .text t => s == t
  | .bytes s, .bytes t => s == t
  | .float x, .float y => x == y
  | .tuple as, .tuple bs => areSameKeys as bs
  | .value v, .value w => v.compare w == .eq
  | a, b =>
    match a.numeral?, b.numeral? with
    | some x, some y => x.compare y == .eq
    | _, _ => false
def areSameKeys : List Datum → List Datum → Bool
  | [], [] => true
  | a :: as, b :: bs => isSameKey a b && areSameKeys as bs
  | _, _ => false
end

def putEntry (key entry : Datum) : List (Datum × Datum) → List (Datum × Datum)
  | [] => [(key, entry)]
  | (other, old) :: entries =>
    if isSameKey other key then (other, entry) :: entries else (other, old) :: putEntry key entry entries

def ofEntries (entries : List (Datum × Datum)) : Datum :=
  .map (entries.foldl (fun found (key, entry) => putEntry key entry found) [])

end Datum

end Formula
