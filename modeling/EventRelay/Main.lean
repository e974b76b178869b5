import EventRelay.CommandLine.Run
import EventRelay.CommandLine.Session

/-!
# The program

The program reads its arguments, the variables that override settings, and from its input the files
of the working directory; where a stage is to be served, requests follow.
-/

namespace EventRelay.CommandLine

/-- A line of input without its end; none at the end of the input. -/
def readLine? (input : IO.FS.Stream) : IO (Option String) := do
  let line ← input.getLine
  return if line.isEmpty then none else some (Text.trimBy (· = '\n') line)

/-- The variables of the environment that override settings. -/
def readEnvironment : IO Settings.Environment := do
  let values ← Settings.variableNames.mapM fun name => do
    let value ← IO.getEnv name
    return (name, value)
  return fun name => (values.lookup name).join

/-- Answers requests until the input ends. -/
partial def answerRequests (input : IO.FS.Stream) (files : FileTree)
    (endpoint : Endpoint ConfiguredStore ConfiguredProducer) : IO Unit := do
  match ← readLine? input with
  | none => return
  | some line =>
    let (response, endpoint, files) := endpoint.handle files (requestOfLine line)
    let output ← IO.getStdout
    output.putStrLn (lineOfResponse response)
    output.flush
    answerRequests input files endpoint

/-- Ends the program with a message and a code. -/
def refuse (message : String) (code : UInt32) : IO UInt32 := do
  IO.eprintln message
  return code

/-- Reads the working directory, where the arguments call for it. -/
def readFiles (arguments : List String) (input : IO.FS.Stream) : IO (Except String FileTree) := do
  match Arguments.read arguments with
  | .run .. => return filesOfLine ((← readLine? input).getD "")
  | _ => return .ok .empty

/-- Runs the program on its arguments. -/
def start (arguments : List String) : IO UInt32 := do
  let input ← IO.getStdin
  match ← readFiles arguments input with
  | .error problem => refuse ("Error: the working directory cannot be read: " ++ problem) 1
  | .ok files =>
    match run arguments (← readEnvironment) files with
    | .exited code output problem =>
      IO.print output
      IO.eprint problem
      return UInt32.ofNat code
    | .misused => refuse "error: the arguments cannot be understood; try '--help'" 2
    | .serving endpoint =>
      answerRequests input files endpoint
      return 0

end EventRelay.CommandLine

/-- Runs the program. -/
def main (arguments : List String) : IO UInt32 :=
  EventRelay.CommandLine.start arguments
