/-
Handlers run commands. A handler states the commands that it implements, and turns a command into
events at once, or into a question to the registry or to the record store whose answer it turns into
events later. An error on the way becomes the last line of the response.
-/
import ClusterConsole.Database.Answer
import ClusterConsole.Database.Request
import ClusterConsole.Record.Wire
import ClusterConsole.Registry.Startup
import ClusterConsole.Script

namespace ClusterConsole

/-- A running handler. -/
inductive Handler
  /-- Lists the registered commands. -/
  | help
  /-- Ends the session. -/
  | exit
  /-- Shows the configuration. -/
  | config (c : Config)
  /-- Lists the members of the cluster. -/
  | cluster (members : List ClusterMember)
  /-- Reads and modifies records; `filter` is the status by which the next reply is filtered. -/
  | database (filter : Option Bool)
  | scripted (s : Script)
deriving DecidableEq

/-- What running a command leads to. -/
inductive Effect
  | emit (events : List Event)
  /-- The registry is asked for all registrations. -/
  | askRegistry
  /-- The record store is sent a request. -/
  | askStore (request : Envelope)
deriving DecidableEq

/-- What a handler hears in answer to a question. -/
inductive Answer
  | registry (r : Response)
  | store (e : Envelope)
deriving DecidableEq

namespace Handler

/-! ## Registration -/

/-- The name of a handler. -/
def name : Handler → Text
  | .help => "help"
  | .exit => "exit"
  | .config _ => "config"
  | .cluster _ => "cluster"
  | .database _ => "database"
  | .scripted s => s.name

/-- The path `help`. -/
def helpPath : CommandPath := ⟨["help"], by decide, by decide⟩

/-- The path `exit`. -/
def exitPath : CommandPath := ⟨["exit"], by decide, by decide⟩

/-- The path `quit`. -/
def quitPath : CommandPath := ⟨["quit"], by decide, by decide⟩

/-- The path `config`. -/
def configPath : CommandPath := ⟨["config"], by decide, by decide⟩

/-- The path `cluster list`. -/
def clusterListPath : CommandPath := ⟨["cluster", "list"], by decide, by decide⟩

/-- The path `database`. -/
def databasePath : CommandPath := ⟨["database"], by decide, by decide⟩

/-- The option of `config` that picks a setting. -/
def keyOption : CliOption :=
  ⟨'k', some "key", some "KEY", 1, false, false, "Show a single top-level key", by decide,
    by decide, CliOption.one_arg_ok false⟩

/-- The options of `config`. -/
def configOptions : OptionSet := ⟨[keyOption], by simp, by decide, by simp⟩

/-- What the handler at a place registers, unless it cannot. -/
def registrations (h : Handler) (place : Nat) : Option (List Registration) :=
  let ref : HandlerRef := ⟨h.name, place⟩
  match h with
  | .help => some [⟨ref, helpPath, none, some "List available commands"⟩]
  | .exit =>
    some ([exitPath, quitPath].map fun path => ⟨ref, path, none, some "Leave the console"⟩)
  | .config _ =>
    some [⟨ref, configPath, some configOptions, some "Show the console configuration"⟩]
  | .cluster _ => some [⟨ref, clusterListPath, none, some "List cluster members"⟩]
  | .database _ =>
    some [⟨ref, databasePath, some Database.options, some "Query and modify stored records"⟩]
  | .scripted s => s.commands.map fun cs => cs.map (Script.registration ref)

/-- How the handler at a place answers the request for its registrations. -/
def conduct (h : Handler) (place : Nat) : Conduct :=
  match h.registrations place with
  | some rs => .answers rs
  | none => .fails

/-! ## Commands -/

/-- What is said at the end. -/
def farewell : Text := "Goodbye."

/-- The options of a command, for its handler. -/
def parsed (c : Command) : Except ConsoleError ParsedOptions :=
  c.parseOptions.mapError fun e => .handler (.options e)

/-- Runs a `database` command: the filter is set before the store is found to be out of reach. -/
def executeDatabase (filter : Option Bool) (storeRuns : Bool) (c : Command) :
    Option Bool × Except ConsoleError Effect :=
  let prepared := do
    let p ← parsed c
    let request ← Database.request p
    return (request, ← Database.pendingFilter request p)
  match prepared with
  | .error e => (filter, .error e)
  | .ok (request, filter) =>
    (filter,
      if storeRuns then .ok (.askStore request.seal) else .error (.mailboxClosed "persistence"))

/-- Runs a command; `storeRuns` says whether the record store can be reached. -/
def execute (h : Handler) (storeRuns : Bool) (c : Command) :
    Handler × Except ConsoleError Effect :=
  match h with
  | .help => (h, .ok .askRegistry)
  | .exit => (h, .ok (.emit [Event.terminate (some farewell)]))
  | .config settings => (h, (parsed c).map fun p => .emit (settings.events (p.value 'k')))
  | .cluster members => (h, .ok (.emit (Cluster.events members)))
  | .database filter =>
    let (filter, result) := executeDatabase filter storeRuns c
    (.database filter, result)
  | .scripted s => (h, (s.execute c).map .emit)

/-- Turns an answer into events. A filter is used up by a reply that can be read. -/
def hear (h : Handler) (a : Answer) : Handler × Except ConsoleError (List Event) :=
  match h, a with
  | .help, .registry r => (h, .ok (Help.events r.catalog))
  | .database filter, .store e =>
    match e.openReply with
    | .ok reply => (.database none, .ok (Database.replyEvents filter reply))
    | .error err => (h, .error err)
  | _, _ => (h, .ok [])

/-- How an error is reported. -/
def report (e : ConsoleError) : List Event := [Event.last ("error: " ++ e.message)]

/-- The events, or the report of the error. -/
def reported : Except ConsoleError (List Event) → List Event
  | .ok events => events
  | .error e => report e

end Handler

end ClusterConsole
