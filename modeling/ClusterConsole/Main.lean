/-
The program: it reads its configuration, and then lines from standard input until the session ends.
Everything that is written is decided by the library; here it is only put out, line by line.
-/
import ClusterConsole.CommandLine

namespace ClusterConsole

/-- Writes a text to standard output at once. -/
def putText (t : Text) : IO Unit := do
  let out ← IO.getStdout
  out.putStr (String.ofList t)
  out.flush

/-- Reads bytes up to a newline or the end of the input; `before` are the bytes read so far, the
last one first. -/
partial def readRawLine (input : IO.FS.Stream) (before : Bytes) : IO Bytes := do
  let chunk ← input.read 1
  match chunk.toList with
  | [] => return before.reverse
  | b :: _ => if b = 0x0A then return (b :: before).reverse else readRawLine input (b :: before)

/-- Goes through the rounds of a session; the result is the exit code. -/
partial def converseWith (prompt : Text) (s : Session.State Console) : IO UInt32 := do
  putText prompt
  let raw ← readRawLine (← IO.getStdin) []
  if raw.isEmpty then
    putText ['\n']
    return UInt32.ofNat CommandLine.success
  let round := Session.step CommandLine.submit s raw
  putText round.text
  match round.next with
  | .inl s => converseWith prompt s
  | .inr none => return UInt32.ofNat CommandLine.success
  | .inr (some e) =>
    IO.eprintln (String.ofList e.message)
    return UInt32.ofNat CommandLine.failure

/-- The contents of a file, if it can be read. -/
def readFile (path : Text) : IO (Option Bytes) := do
  try
    return some (← IO.FS.readBinFile (String.ofList path)).toList
  catch _ => return none

/-- Runs a session with the configuration file at a path, or with the defaults. -/
def runSession (path : Option Text) : IO UInt32 := do
  let content ← match path with
    | some path => readFile path
    | none => pure none
  match CommandLine.configFor (fun _ => content) path with
  | none => return UInt32.ofNat CommandLine.failure
  | some c =>
    match CommandLine.console c with
    | .error e =>
      IO.eprintln (String.ofList e.message)
      return UInt32.ofNat CommandLine.failure
    | .ok s =>
      putText (Session.bannerText c.banner)
      converseWith c.prompt { service := s }

end ClusterConsole

open ClusterConsole

def main (arguments : List String) : IO UInt32 := do
  let environment := (← IO.getEnv (String.ofList CommandLine.variableName)).map String.toList
  match CommandLine.parse environment (arguments.map String.toList) with
  | none => return UInt32.ofNat CommandLine.usageError
  | some .help =>
    putText (CommandLine.helpText environment)
    return UInt32.ofNat CommandLine.success
  | some (.session path) => runSession path
