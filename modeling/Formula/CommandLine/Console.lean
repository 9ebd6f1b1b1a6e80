import Formula.CommandLine.Folder
import Formula.Document
import Formula.Library.Standard
import Formula.Printer
import Formula.Session

/-! # The command line

The arguments name a configuration and perhaps a script. A script is evaluated as one expression; without
one, lines are answered one after another until the input ends. Results and lines of expressions go to
the output, failures and traces to the error output.
-/
namespace Formula.CommandLine

structure Invocation where
  config : Option String
  script : Option String
deriving DecidableEq

def configFlag : String := "--config"

def Invocation.ofArguments? (arguments : List String) : Option Invocation :=
  let before := arguments.takeWhile (· ≠ configFlag)
  let script (rest : List String) : Option String :=
    rest.head?.filter fun argument => !argument.startsWith "-"
  match arguments.dropWhile (· ≠ configFlag) with
  | [] => some ⟨none, script before⟩
  | [_] => none
  | _ :: path :: after => some ⟨some path, script (before ++ after)⟩

structure Outputs where
  output : String := ""
  error : String := ""
deriving DecidableEq

def Outputs.append (first second : Outputs) : Outputs :=
  ⟨first.output ++ second.output, first.error ++ second.error⟩

instance : Append Outputs := ⟨Outputs.append⟩

/-- How the program ends: with a status, or with a failure that nothing reports. -/
inductive Ending where
  | status (code : Nat)
  | failure (failure : Failure)
  | file (trouble : FileTrouble)

structure Outcome where
  outputs : Outputs
  ending : Ending

def line (text : String) : String := text ++ "\n"

def Report.outputs (report : Report) : Outputs where
  output :=
    let shown := (report.effects.filter (·.channel ≠ .failure)).map fun effect => line effect.message
    String.join shown ++
      match report.result with
      | .ok value => line value.pretty
      | .error _ => ""
  error :=
    String.join (report.calls.filterMap fun call => call.trace?.map line) ++
      match report.result with
      | .ok _ => ""
      | .error _ => line report.failureText

/-- The configuration of a document in a file, or the standard one. With `debugging` calls are traced in
any case. -/
def configOf (debugging : Bool) (invocation : Invocation)
    (read : String → Except FileTrouble String) : Except Ending Config :=
  match invocation.config with
  | none => .ok { debug := debugging }
  | some path => do
    let text ← (read path).mapError Ending.file
    let given ←
      (do Config.ofDocument (shownPath path) debugging
            (← Format.yaml.read (String.ofList (Text.withLineFeeds text.toList)))).mapError Ending.failure
    return { given.config with debug := given.config.debug || debugging }

def newSession (config : Config) : Session :=
  { config, workspace := ⟨.standard, .empty, .empty⟩, presets := [] }

def runScript (config : Config) (path : String) (text : Except FileTrouble String) : Outcome :=
  match text with
  | .error .missing => ⟨{ error := line ("Error: file not found: " ++ path) }, .status 1⟩
  | .error trouble => ⟨{}, .file trouble⟩
  | .ok text =>
    match (newSession config).run (String.ofList (Text.withLineFeeds text.toList)) [] with
    | .error failure => ⟨{}, .failure failure⟩
    | .ok (report, _) => ⟨Report.outputs report, .status (if report.result.isOk then 0 else 1)⟩

def banner : String := line "LAZEX REPL v0.1" ++ line "Type 'exit' or press Ctrl+D to quit."

def prompt : String := ">> "

def farewell : String := line "\nExiting."

inductive Answer where
  | next (outputs : Outputs) (session : Session)
  | exit
  | failed (failure : Failure)

def answer (session : Session) (entered : String) : Answer :=
  let source := String.ofList (Text.trimmed Text.isBlank entered.toList)
  if source.isEmpty then .next {} session
  else if source = "exit" then .exit
  else
    match session.run source [] with
    | .ok (report, session) => .next (Report.outputs report) session
    | .error failure => .failed failure

/-- Answers lines until one asks to leave or the input ends. -/
def converse (session : Session) (outputs : Outputs) : List String → Outcome
  | [] => ⟨outputs ++ { output := prompt ++ farewell }, .status 0⟩
  | entered :: rest =>
    let outputs := outputs ++ { output := prompt }
    match answer session entered with
    | .next written session => converse session (outputs ++ written) rest
    | .exit => ⟨outputs, .status 0⟩
    | .failed failure => ⟨outputs, .failure failure⟩

def inputLines (input : String) : List String :=
  let pieces := input.splitOn "\n"
  if pieces.getLast? = some "" then pieces.dropLast else pieces

def missingConfig : Outcome := ⟨{ error := line "Error: --config needs a file" }, .status 2⟩

def run (arguments : List String) (folder : Folder) (input : String) : Outcome :=
  match Invocation.ofArguments? arguments with
  | none => missingConfig
  | some invocation =>
    match configOf false invocation folder.read with
    | .error ending => ⟨{}, ending⟩
    | .ok config =>
      match invocation.script with
      | some path => runScript config path (folder.read path)
      | none => converse (newSession config) { output := banner } (inputLines input)

end Formula.CommandLine
