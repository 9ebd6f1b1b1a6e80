import Formula.CommandLine.Console

/-! # The program

Reads files and lines for the command line and writes what it answers.
-/
namespace Formula.CommandLine

def write (outputs : Outputs) : IO Unit := do
  IO.print outputs.output
  IO.eprint outputs.error
  (← IO.getStdout).flush

def readFile (path : String) : IO (Except FileTrouble String) := do
  try
    return .ok (← IO.FS.readFile (shownPath path))
  catch trouble =>
    match trouble with
    | .noFileOrDirectory .. => return .error .missing
    | _ => return .error .folder

/-- The status of the program. Failures that nothing reported are written out. -/
def finish : Ending → IO UInt32
  | .status code => return code.toUInt32
  | .failure failure => do
    IO.eprintln failure.message
    return 1
  | .file .missing => do
    IO.eprintln "No such file"
    return 1
  | .file _ => do
    IO.eprintln "Not a file"
    return 1

partial def converseLive (session : Session) : IO UInt32 := do
  write { output := prompt }
  let entered ← (← IO.getStdin).getLine
  if entered.isEmpty then
    write { output := farewell }
    return 0
  else
    match answer session entered with
    | .next outputs session =>
      write outputs
      converseLive session
    | .exit => return 0
    | .failed failure => finish (.failure failure)

def start (arguments : List String) : IO UInt32 := do
  let debugging := (← IO.getEnv "LAZEX_DEBUG").any fun setting => !setting.isEmpty
  match Invocation.ofArguments? arguments with
  | none =>
    write missingConfig.outputs
    finish missingConfig.ending
  | some invocation =>
    let text : Except FileTrouble String ←
      match invocation.config with
      | some path => readFile path
      | none => pure (.ok "")
    match configOf debugging invocation fun _ => text with
    | .error ending => finish ending
    | .ok config =>
      match invocation.script with
      | some path =>
        let outcome := runScript config path (← readFile path)
        write outcome.outputs
        finish outcome.ending
      | none =>
        write { output := banner }
        converseLive (newSession config)

end Formula.CommandLine

def main (arguments : List String) : IO UInt32 := Formula.CommandLine.start arguments
