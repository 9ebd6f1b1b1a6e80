import Formula.Table
import Formula.Value

/-! # Environments

An environment maps names to cells. The entry in a cell either holds a value or computes one each time
it is read; nothing is computed before. Reading a name that was never set defines it as zero. A cell
that is put aside and put back later is still the same cell: how often it was read is counted under its
number, apart from the names.
-/
namespace Formula

/-- Where an entry's value comes from. A computation sees how often it was run, this time included, and nothing
else: it reads and changes no entries and leaves no lines. -/
inductive Source where
  | constant (value : Value)
  | deferred (compute : Nat → Except Failure Value)

namespace Source

/-- The value on reading for the `n`-th time. -/
def force (n : Nat) : Source → Except Failure Value
  | .constant value => .ok value
  | .deferred compute => compute n

def constant? : Source → Option Value
  | .constant value => some value
  | .deferred _ => none

end Source

structure Entry where
  label : String
  source : Source

namespace Entry

def ofValue (label : String) (value : Value) : Entry := ⟨label, .constant value⟩

def spelled (entry : Entry) : String :=
  match entry.source with
  | .constant value => "<ConstantLazyValue " ++ value.spelled ++ ">"
  | .deferred _ => "<LazyValue " ++ entry.label ++ ">"

end Entry

/-- An entry in its place. No other cell has the same number. -/
structure Cell where
  entry : Entry
  id : Nat

structure Environment where
  table : Table Cell
  /-- How often each cell was forced, by its number. -/
  forces : Array Nat
deriving Inhabited

namespace Environment

def empty : Environment := ⟨.empty, #[]⟩

def cell? (env : Environment) (name : String) : Option Cell := env.table.get? name

def entry? (env : Environment) (name : String) : Option Entry := (env.cell? name).map (·.entry)

def contains (env : Environment) (name : String) : Bool := env.table.contains name

def names (env : Environment) : List String := env.table.keys

def forcesOf (env : Environment) (cell : Cell) : Nat := env.forces.getD cell.id 0

def define (env : Environment) (name : String) (entry : Entry) : Environment :=
  match env with
  | ⟨table, forces⟩ => ⟨table.insert name ⟨entry, forces.size⟩, forces.push 0⟩

def unbind (env : Environment) (name : String) : Environment := { env with table := env.table.erase name }

/-- The cell for `name`; a missing one is defined first, as zero bound to the name. -/
def lookup (env : Environment) (name : String) : Cell × Environment :=
  match env.cell? name with
  | some cell => (cell, env)
  | none =>
    let entry := Entry.ofValue name (Value.zero.boundTo name)
    (⟨entry, env.forces.size⟩, env.define name entry)

def force (env : Environment) (cell : Cell) : Except Failure Value × Environment :=
  match env with
  | ⟨table, forces⟩ =>
    let count := forces.getD cell.id 0 + 1
    (cell.entry.source.force count, ⟨table, forces.setIfInBounds cell.id count⟩)

def read (env : Environment) (name : String) : Except Failure Value × Environment :=
  let (cell, env) := env.lookup name
  let (result, env) := env.force cell
  (result.map (·.boundTo name), env)

def bind (env : Environment) (name : String) (value : Value) : Environment :=
  env.define name (.ofValue name (value.boundTo name))

def save (env : Environment) (names : List String) : List (String × Option Cell) :=
  names.map fun name => (name, env.cell? name)

/-- Puts saved cells back. A name that was missing is removed again. -/
def restore (env : Environment) : List (String × Option Cell) → Environment
  | [] => env
  | (name, some cell) :: saved => { env with table := env.table.insert name cell }.restore saved
  | (name, none) :: saved => (env.unbind name).restore saved

def readAll (env : Environment) : List String → Except Failure (List (String × Value)) × Environment
  | [] => (.ok [], env)
  | name :: names =>
    match env.read name with
    | (.error failure, env) => (.error failure, env)
    | (.ok value, env) =>
      match env.readAll names with
      | (.error failure, env) => (.error failure, env)
      | (.ok rest, env) => (.ok ((name, value) :: rest), env)

def snapshot (env : Environment) : Except Failure (List (String × Value)) × Environment :=
  env.readAll env.names

def ofValues (values : List (String × Value)) : Environment :=
  values.foldl (fun env (name, value) => env.bind name value) empty

def spelled (env : Environment) : String :=
  "<Environment names=[" ++ ", ".intercalate env.names ++ "]>"

end Environment

end Formula
