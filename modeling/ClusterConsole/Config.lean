/-
The configuration of the console. Every setting has a default. A configuration can be started from
when it names handlers and none of the names is blank; `validate` says which of the two fails.
-/
import ClusterConsole.Cluster
import ClusterConsole.ConsoleError
import ClusterConsole.Text.Blank

namespace ClusterConsole

/-- The handlers of a console that is not told otherwise. -/
def defaultHandlers : List Text := ["help", "exit", "config", "cluster", "database"]

/-- The settings of the console. -/
structure Config where
  /-- What is written before each line of input. -/
  prompt : Text := "keel> "
  /-- What is written when the session begins. -/
  banner : Option Text := some "KEEL cluster console -- type 'help' for commands"
  /-- Whether lookups wait until every handler has answered. -/
  awaitRegistrations : Bool := true
  /-- Which messages are logged. -/
  logFilter : Text := "info"
  /-- The handlers to start, by name. -/
  handlers : List Text := defaultHandlers
  cluster : Cluster := {}
deriving DecidableEq, Repr

namespace Config

/-- The first fault that keeps the console from starting, if there is one. -/
def fault? (c : Config) : Option ConfigFault :=
  if c.handlers = [] then some .noHandlers
  else (c.handlers.find? fun h => h.trim.isEmpty).map .blankHandler

/-- Accepts a configuration that the console can start from. -/
def validate (c : Config) : Except ConsoleError Unit :=
  match c.fault? with
  | some f => .error (.config f)
  | none => .ok ()

end Config

end ClusterConsole
