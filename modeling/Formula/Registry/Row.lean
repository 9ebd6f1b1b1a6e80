import Formula.Sample.Extras

/-! # Registries side by side

A call on a registry checks and writes step by step: where a check fails the call ends, and what was written
before it stays. Registries stand in a row, where copies join them at the end, and calls are made on one of
them after another.
-/
namespace Formula

inductive Item where
  | operator (op : Operator)
  | function (name : String) (arity : Int) (behaviour : Behaviour)
  | constant (name : String) (value : Value)

def Registration.item : Registration → Item
  | .binary symbol precedence leftAssociative plan =>
    .operator { symbol, precedence, leftAssociative, behaviour := .eager plan }
  | .lazyBinary symbol precedence leftAssociative promisesLeft plan =>
    .operator { symbol, precedence, leftAssociative, behaviour := .lazy plan, promisesLeft }
  | .unary symbol plan =>
    .operator
      { symbol, precedence := Registry.unaryPrecedence, leftAssociative := false, behaviour := .eager plan,
        unary := true }
  | .function name arity plan => .function name arity (.eager plan)
  | .lazyFunction name arity plan => .function name arity (.lazy plan)
  | .float name arity f => .function name arity (.eager (Library.lifted name f))
  | .constant name value => .constant name value

namespace Registry

abbrev Call := ExceptT Failure (StateM Registry)

def checkOpen : Call Unit := do
  if (← get).frozen then throw (.of .frozen)

def checkSymbol (symbol : String) : Call Unit :=
  if isSymbol symbol then pure () else throw (.of (.invalidSymbol symbol))

def checkName (name : String) : Call String :=
  if isName name then pure (Text.lower name) else throw (.of (.invalidName name))

def enter : Item → Call Unit
  | .operator op => do
    checkOpen
    checkSymbol op.symbol
    modify fun registry => { registry with operators := registry.operators.insert op.key op }
  | .function name arity behaviour => do
    checkOpen
    let key ← checkName name
    modify fun registry => { registry with functions := registry.functions.insert key ⟨key, arity, behaviour⟩ }
  | .constant name value => do
    checkOpen
    modify fun registry => { registry with constants := registry.constants.insert name value }

/-- Enters what a library registers up to the first item that is refused. -/
def enterAll : List Registration → Call Unit
  | [] => pure ()
  | registration :: rest => do
    enter registration.item
    enterAll rest

def Call.on (call : Call Unit) (registry : Registry) : Except Failure Unit × Registry := call.run.run registry

end Registry

inductive Demand where
  | register (registration : Registration)
  | loadExtras
  | freeze
  | copy

namespace Demand

def call : Demand → Registry.Call Unit
  | .register registration => Registry.enter registration.item
  | .loadExtras => Registry.enterAll Sample.extras
  | .freeze => modify Registry.freeze
  | .copy => pure ()

def copies (registry : Registry) : Demand → List Registry
  | .copy => [registry.copy]
  | .register _ | .loadExtras | .freeze => []

def shape (registry : Registry) : List Demand → Registry
  | [] => registry
  | demand :: rest => shape (demand.call.on registry).2 rest

end Demand

structure Request where
  place : Nat
  demand : Demand

namespace Row

/-- Answers a request. No request is made at an empty place. -/
def serve (row : List Registry) (request : Request) : Except Failure Unit × List Registry :=
  match row[request.place]? with
  | none => (.ok (), row)
  | some registry =>
    let (answer, next) := request.demand.call.on registry
    (answer, row.set request.place next ++ request.demand.copies registry)

/-- The row after requests, refused ones among them. -/
def after (row : List Registry) : List Request → List Registry
  | [] => row
  | request :: rest => after (serve row request).2 rest

def demandsAt (place : Nat) (requests : List Request) : List Demand :=
  (requests.filter fun request => request.place == place).map (·.demand)

end Row

end Formula
