import Formula.Expression
import Formula.Text.Line

/-! # Sessions

A session runs one source text after another on a shared registry and environment, for a host that may
supply functions and variables. Each run is reported: its value or the text of its failure with the line
at fault, and its lines in order.
-/
namespace Formula

/-- What a host adds to a session: functions at its start and variables before every run. -/
structure Host where
  functions : List (String × Int × (Settings → List Value → Plan)) := []
  presets : List (String × Datum) := []
  /-- What the functions remember at the start. -/
  memory : Table Value := .empty

inductive Channel where
  | log
  | output
  | failure
deriving DecidableEq

structure Effect where
  channel : Channel
  message : String
deriving DecidableEq

structure Report where
  result : Except Failure Value
  /-- The text of a failure; empty for a success. -/
  failureText : String
  effects : List Effect
  calls : List Event

namespace FailureKind

def title : FailureKind → String
  | .lexical => "LexError"
  | .structural => "ExpressionSyntaxError"
  | .evaluation => "EvalError"
  | .arity => "ArityError"
  | .operandType => "ExpressionTypeError"
  | .registration => "RegistryError"

end FailureKind

namespace Report

/-- The line of the source at fault, with a caret below the column; nothing where there is no such
line. -/
def excerpt (source : List Char) (line column : Nat) : String :=
  let lines := Text.lines source
  match (if lines.isEmpty then [[]] else lines)[line - 1]? with
  | none => ""
  | some shown =>
    let number := toString line
    "> " ++ number ++ " | " ++ String.ofList shown ++ "\n  " ++
      String.ofList (List.replicate number.length ' ') ++ " | " ++
      String.ofList (List.replicate (column - 1) ' ') ++ "^"

def headline : Failure → String
  | .expression cause _ => cause.kind.title ++ ": " ++ cause.message
  | other => "InternalError: " ++ other.message

def describe (source : String) (failure : Failure) : String :=
  match failure.offset? with
  | none => headline failure
  | some offset =>
    let characters := source.toList
    let line := Text.lineOf characters offset
    let column := Text.columnOf characters offset
    headline failure ++ " (line " ++ toString line ++ ", col " ++ toString column ++ ")\n" ++
      excerpt characters line column

def effect? : Event → Option Effect
  | .log line => some ⟨.log, line⟩
  | .print line => some ⟨.output, line⟩
  | .call .. => none

def isCall : Event → Bool
  | .call .. => true
  | _ => false

def of (source : String) (result : Except Failure Value) (events : List Event) : Report :=
  let effects := events.filterMap effect?
  let calls := events.filter isCall
  match result with
  | .ok value => ⟨.ok value, "", effects, calls⟩
  | .error failure =>
    let text := describe source failure
    ⟨.error failure, text, effects ++ [⟨.failure, text⟩], calls⟩

end Report

structure Session where
  config : Config
  workspace : Workspace
  /-- What the host sets before every run. -/
  presets : List (String × Datum)
  machine : Machine := Config.machine

namespace Session

def addFunctions (registry : Registry) :
    List (String × Int × (Settings → List Value → Plan)) → Except Failure Registry
  | [] => .ok registry
  | (name, arity, plan) :: rest => do
    let registry ← registry.addFunction name arity plan
    addFunctions registry rest

def start (config : Config) (registry : Registry) (host : Host) : Except Failure Session := do
  let registry ← addFunctions registry host.functions
  return { config, workspace := ⟨registry, .empty, host.memory⟩, presets := host.presets }

def settings (session : Session) : Except Failure Settings := do
  return { (← session.config.settings) with machine := session.machine }

/-- Runs a source with variables of its own. Only a configuration that no context can be made of, or
constants that do not fit it, keep a run from being reported. -/
def run (session : Session) (source : String) (assigned : List (String × Datum)) :
    Except Failure (Report × Session) := do
  let settings ← session.settings
  let (expression, workspace) ← Expression.make source settings session.workspace
  match workspace.environment.setAll settings.context (session.presets ++ assigned) with
  | (.error failure, environment) =>
    return (.of source (.error failure) [],
      { session with workspace := { workspace with environment } })
  | (.ok (), environment) =>
    let evaluated := expression.evaluate { workspace with environment }
    return (.of source evaluated.result evaluated.events,
      { session with workspace := evaluated.workspace })

end Session

end Formula
