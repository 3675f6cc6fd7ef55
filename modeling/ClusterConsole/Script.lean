/-
Scripted handlers: each command has a fixed conduct. They stand for handlers that the console does
not come with.
-/
import ClusterConsole.Command
import ClusterConsole.ConsoleError
import ClusterConsole.Listing

namespace ClusterConsole

/-- What a scripted command does. -/
inductive ScriptedConduct
  /-- It reports an error. -/
  | fail (text : Text)
  /-- It says one thing. -/
  | say (text : Text)
  /-- It ends the session. -/
  | terminate (text : Option Text)
  /-- It never answers. -/
  | silent
  /-- It answers without saying anything. -/
  | done
  /-- It shows what it was given, and says one thing at the end. -/
  | echo (text : Text)
deriving DecidableEq

/-- A command of a scripted handler. -/
structure ScriptedCommand where
  path : CommandPath
  options : Option OptionSet
  description : Option Text
  conduct : ScriptedConduct
deriving DecidableEq

/-- A scripted handler; without commands it cannot state its registrations. -/
structure Script where
  name : Text
  commands : Option (List ScriptedCommand)
deriving DecidableEq

namespace Script

/-- The registration of a scripted command. -/
def registration (handler : HandlerRef) (c : ScriptedCommand) : Registration :=
  ⟨handler, c.path, c.options, c.description⟩

/-- The lines that show what a command was given. -/
def echoLines (c : Command) (p : ParsedOptions) : List Text :=
  let options := p.given.map fun o =>
    '-' :: o.1 :: ' ' :: Text.join "|" o.2
  let arguments := p.args.map ("arg ".toList ++ ·)
  ("path " ++ c.path.text) :: (options ++ arguments)

/-- The events of a conduct. -/
def events (c : Command) : ScriptedConduct → Except ConsoleError (List Event)
  | .fail text => .error (.handler (.other text))
  | .say text => .ok [Event.last text]
  | .terminate text => .ok [Event.terminate text]
  | .silent => .ok []
  | .done => .ok [Event.done]
  | .echo text =>
    match c.parseOptions with
    | .ok p => .ok ((echoLines c p).map Event.line ++ [Event.last text])
    | .error e => .error (.handler (.options e))

/-- The events of a command; of several commands with its registered path, the last one counts. -/
def execute (s : Script) (c : Command) : Except ConsoleError (List Event) :=
  let found := (s.commands.getD []).reverse.find? fun d => d.path == c.registration.path
  match found with
  | some d => events c d.conduct
  | none => .ok []

end Script

end ClusterConsole
