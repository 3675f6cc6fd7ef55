/-
The command line of the program: a configuration file by option or by environment variable, or a
request for help. What does not fit is a usage error.
-/
import ClusterConsole.Options.Parse
import ClusterConsole.Console
import ClusterConsole.Session

namespace ClusterConsole.CommandLine

/-- What the command line asks for. -/
inductive Request
  | help
  /-- A session, with the configuration file at a path or with the defaults. -/
  | session (path : Option Text)
deriving DecidableEq, Repr

/-! ## Arguments -/

open Options

/-- What an argument is. -/
inductive Argument
  | help
  /-- The configuration file; its path comes with it or next. -/
  | file (path : Option Text)
  /-- The end of the options. -/
  | terminator
  | unknown
deriving DecidableEq, Repr

/-- What a token is as an argument. -/
def Argument.ofToken (token : Text) : Argument :=
  match lexeme token with
  | .terminator => .terminator
  | .long name value =>
    if name = "help".toList ∧ value = none then .help
    else if name = "config".toList then .file value
    else .unknown
  | .cluster ('h' :: _) => .help
  | .cluster ['c'] => .file none
  | .cluster ('c' :: value) => .file (some (attached value))
  | .cluster _ => .unknown
  | .plain => .unknown

/-- Whether a token can be the value of the option before it. -/
def isValue (token : Text) : Bool :=
  match lexeme token with
  | .plain => true
  | _ => false

/-- Whether `path` can be taken after `before`: a file is given once, and its path is not empty. -/
def isAcceptable (before : Option Text) (path : Text) : Bool := before.isNone && !path.isEmpty

/-- Reads the arguments from left to right; `before` is the configuration file given so far. A
request for help is granted where it stands, whatever follows. -/
def parseFrom (before : Option Text) : List Text → Option Request
  | [] => some (.session before)
  | token :: tokens =>
    match Argument.ofToken token with
    | .help => some .help
    | .terminator => if tokens = [] then some (.session before) else none
    | .file (some path) =>
      if isAcceptable before path then parseFrom (some path) tokens else none
    | .file none =>
      match tokens with
      | path :: rest =>
        if isValue path && isAcceptable before path then parseFrom (some path) rest else none
      | [] => none
    | .unknown => none

/-- Reads the arguments; the environment variable counts where they name no file. -/
def parse (environment : Option Text) (arguments : List Text) : Option Request :=
  match parseFrom none arguments with
  | some (.session none) =>
    if environment = some [] then none else some (.session environment)
  | r => r

/-- The name of the environment variable. -/
def variableName : Text := "KEEL_CONFIG"

/-- The column in which the descriptions of the help text stand. -/
def descriptionColumn : Nat := 25

/-- The text with all its lines but the first moved to the column of the descriptions. -/
def hanging (t : Text) : Text :=
  t.flatMap fun c => if c = '\n' then c :: List.replicate descriptionColumn ' ' else [c]

/-- The help text, which shows the value of the environment variable. -/
def helpText (environment : Option Text) : Text :=
  let entry : Text := "  -c, --config <CONFIG>  " ++
    "Configuration file (TOML). Built-in defaults are used when omitted [env: " ++
    variableName ++ "=" ++ hanging (environment.getD []) ++ "]"
  let lines : List Text :=
    ["Interactive cluster-management console", [], "Usage: keel [OPTIONS]", [], "Options:", entry,
      "  -h, --help             Print help"]
  lines.flatMap (· ++ ['\n'])

/-! ## Exit codes -/

/-- The exit code of a program that did what it was asked. -/
def success : Nat := 0

/-- The exit code of a program that could not start or go on. -/
def failure : Nat := 1

/-- The exit code of a program that was not asked properly. -/
def usageError : Nat := 2

/-! ## Sessions -/

/-- The console that a configuration asks for, with an empty record store. -/
def console (c : Config) : Except ConsoleError Console :=
  Console.setup c (some (.memory Store.empty)) []

/-- Submits a line to the console. -/
def submit (s : Console) (line : Line) : Console × List Event :=
  let (s, outcome) := s.submit line
  (s, outcome.events)

/-- The transcript of a session with a console that is set up. -/
def transcript (c : Config) (s : Console) (input : Bytes) : Transcript :=
  Session.run submit s c.prompt c.banner input

/-- The configuration in a file, of which nothing may be there to read. -/
def loadConfig (file : Option Bytes) : Option Config := do
  let bytes ← file
  let text ← (Utf8.decode bytes).toOption
  (Config.ofDocument text).toOption

/-- The configuration for a path, of which `files` gives the contents. -/
def configFor (files : Text → Option Bytes) : Option Text → Option Config
  | some path => loadConfig (files path)
  | none => some {}

/-- What a run of the program comes to. -/
structure Result where
  exitCode : Nat
  output : Text
deriving DecidableEq

/-- A run of the program: its exit code and what it writes. -/
def run (environment : Option Text) (files : Text → Option Bytes) (arguments : List Text)
    (input : Bytes) : Result :=
  match parse environment arguments with
  | none => ⟨usageError, []⟩
  | some .help => ⟨success, helpText environment⟩
  | some (.session path) =>
    match configFor files path with
    | none => ⟨failure, []⟩
    | some c =>
      match console c with
      | .error _ => ⟨failure, []⟩
      | .ok s =>
        let t := transcript c s input
        ⟨if t.error.isNone then success else failure, t.output⟩

end ClusterConsole.CommandLine
