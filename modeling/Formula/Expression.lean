import Formula.Config
import Formula.Evaluation
import Formula.Rpn
import Formula.Token.Scan

/-! # Expressions

An expression is a source text that is scanned, listed and built once, on first use, and evaluated as
often as wanted. Expressions may share one workspace: a registry, an environment and the memory of the
host. The first evaluation closes the registry.
-/
namespace Formula

structure Workspace where
  registry : Registry
  environment : Environment
  memory : Table Value
deriving Inhabited

/-- The value that a new environment starts with for a constant: numbers are rounded, and no longer
carry a unit. -/
def seedValue (context : Context) : Value → Except Failure Value
  | .number amount _ _ => ((context.plus amount).map Value.ofDecimal).mapError .numeric
  | value => .ok value

def Environment.seed (context : Context) (environment : Environment) :
    List (String × Value) → Except Failure Environment
  | [] => .ok environment
  | (name, value) :: constants =>
    if environment.contains name then environment.seed context constants
    else do
      let value ← seedValue context value
      (environment.bind name value).seed context constants

/-- The value that a text given for a variable stands for: a number where it looks like one, null where
it says so, and itself otherwise. -/
def valueOfText (context : Context) (text : String) : Except Failure Value :=
  match Decimal.ofText? text with
  | some number => ((context.round number).map Value.ofDecimal).mapError .numeric
  | none => .ok (if Text.lower text = "null" then .null none else .text text none)

/-- Sets a variable from a datum. Deferred entries are installed as they are. -/
def Environment.set (context : Context) (environment : Environment) (name : String) (datum : Datum) :
    Except Failure Environment :=
  match datum with
  | .deferred entry => .ok (environment.define name entry)
  | .text text => (valueOfText context text).map (environment.bind name)
  | other => (other.toValue (some context)).map (environment.bind name)

def Environment.setAll (context : Context) (environment : Environment) :
    List (String × Datum) → Except Failure Unit × Environment
  | [] => (.ok (), environment)
  | (name, datum) :: rest =>
    match environment.set context name datum with
    | .ok environment => environment.setAll context rest
    | .error failure => (.error failure, environment)

structure Sinks where
  log : Bool := true
  print : Bool := true

/-- The line as it reaches an outlet, if there is one. Printed lines fall back to the log. -/
def Sinks.deliver (sinks : Sinks) : Event → Option Event
  | .log line => if sinks.log then some (.log line) else none
  | .print line =>
    if sinks.print then some (.print line) else if sinks.log then some (.log line) else none
  | .call name arguments => some (.call name arguments)

structure Expression where
  source : String
  settings : Settings
  tokens : Option (List Token) := none
  rpn : Option (List Token) := none
  tree : Option Tree := none
  /-- How often each node of the tree was forced so far. -/
  forces : Array Nat := #[]
deriving Inhabited

namespace Expression

def make (source : String) (settings : Settings) (workspace : Workspace) :
    Except Failure (Expression × Workspace) := do
  let environment ←
    workspace.environment.seed settings.context workspace.registry.constants.entries
  return ({ source, settings }, { workspace with environment })

def scanned (expression : Expression) (registry : Registry) :
    Except Failure (List Token) × Expression :=
  match expression.tokens with
  | some tokens => (.ok tokens, expression)
  | none =>
    match tokenize registry expression.source with
    | .ok tokens => (.ok tokens, { expression with tokens })
    | .error failure => (.error failure, expression)

def listed (expression : Expression) (registry : Registry) :
    Except Failure (List Token) × Expression :=
  match expression.rpn with
  | some rpn => (.ok rpn, expression)
  | none =>
    match expression.scanned registry with
    | (.error failure, expression) => (.error failure, expression)
    | (.ok tokens, expression) =>
      match Rpn.checked registry tokens with
      | .ok rpn => (.ok rpn, { expression with rpn })
      | .error failure => (.error failure, expression)

def built (expression : Expression) (registry : Registry) : Except Failure Tree × Expression :=
  match expression.tree with
  | some tree => (.ok tree, expression)
  | none =>
    match expression.listed registry with
    | (.error failure, expression) => (.error failure, expression)
    | (.ok rpn, expression) =>
      match Tree.ofRpn registry expression.settings.context rpn with
      | .ok tree =>
        (.ok tree, { expression with tree, forces := Array.replicate tree.size 0 })
      | .error failure => (.error failure, expression)

/-- What an evaluation leaves: its result, the expression and workspace after it, and its lines. -/
structure Evaluated where
  result : Except Failure Value
  expression : Expression
  workspace : Workspace
  events : List Event

/-- Evaluates the expression. The registry is closed first, even if the text turns out not to parse. -/
def evaluate (expression : Expression) (workspace : Workspace) : Evaluated :=
  let registry :=
    if expression.tree.isSome then workspace.registry else workspace.registry.freeze
  let workspace := { workspace with registry }
  match expression.built registry with
  | (.error failure, expression) => ⟨.error failure, expression, workspace, []⟩
  | (.ok tree, expression) =>
    let (result, state) :=
      tree.evaluate expression.settings
        ⟨workspace.environment, workspace.memory, expression.forces, []⟩
    ⟨result, { expression with forces := state.forces },
      { workspace with environment := state.environment, memory := state.memory }, state.events⟩

def spelled (expression : Expression) : String :=
  "<Expression " ++ Text.quoted expression.source ++ ">"

end Expression

end Formula
