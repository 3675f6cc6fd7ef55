/-
The console as a whole, without its input and output: handlers, the catalog of their commands, and
the record service. `install` starts handlers by name; `submit` takes a line and gives all events
that it leads to. The catalog is the one that the registry has after every handler has answered.
-/
import ClusterConsole.Handler
import ClusterConsole.RecordService
import ClusterConsole.Resolution

namespace ClusterConsole

/-! ## Installing handlers -/

/-- The names of the handlers that come with the console. -/
def handlerNames : List Text := ["help", "exit", "config", "cluster", "database"]

/-- The handler with a name, if the console comes with it. -/
def Handler.named? (c : Config) (name : Text) : Option Handler :=
  if name = "help".toList then some .help
  else if name = "exit".toList then some .exit
  else if name = "config".toList then some (.config c)
  else if name = "cluster".toList then some (.cluster c.cluster.members)
  else if name = "database".toList then some (.database none)
  else none

namespace Handler

/-- The handler with a name, blanks around it set aside. -/
def ofName (c : Config) (name : Text) : Except ConsoleError Handler :=
  match named? c name.trim with
  | some h => .ok h
  | none => .error (.unknownHandler name.trim)

/-- Whether a handler needs a record service. -/
def needsService : Handler → Bool
  | .database _ => true
  | _ => false

/-- Starts handlers after those that run, up to the first one that lacks its record service. -/
def start (hasService : Bool) (running : List Handler) :
    List Handler → List Handler × Except ConsoleError Unit
  | [] => (running, .ok ())
  | h :: hs =>
    if h.needsService && !hasService then (running, .error (.config .noPersistence))
    else start hasService (running ++ [h]) hs

/-- Starts handlers by name after those that run. An unknown name keeps all of them from being
started. -/
def install (c : Config) (hasService : Bool) (running : List Handler) (names : List Text) :
    List Handler × Except ConsoleError Unit :=
  match names.mapM (ofName c) with
  | .error e => (running, .error e)
  | .ok hs => start hasService running hs

end Handler

/-! ## Running lines -/

/-- The running console. A handler's place in the list is what registrations refer to. -/
structure Console where
  handlers : List Handler
  catalog : Catalog
  service : RecordService

/-- What a line leads to: the events for the operator, and the requests that reach the service. -/
structure Outcome where
  events : List Event
  requests : List Envelope := []
deriving DecidableEq

namespace Console

/-- The console with the given handlers, all of which have been asked for their registrations and
have answered. What is kept of the registry is the catalog, which is the same whether queries had to
`await` the answers or not. -/
def ofHandlers (await : Bool) (handlers : List Handler) (service : RecordService) : Console :=
  let registry : Registry Unit :=
    Registry.started await (handlers.zipIdx.map fun h => h.1.conduct h.2)
  ⟨handlers, registry.catalog, service⟩

/-- The console of a configuration, with further handlers in front. A console without a record
service has one that nothing asks. -/
def setup (c : Config) (service : Option RecordService) (scripts : List Script) :
    Except ConsoleError Console := do
  c.validate
  let (handlers, result) :=
    Handler.install c service.isSome (scripts.map .scripted) c.handlers
  result
  return ofHandlers c.awaitRegistrations handlers (service.getD .closed)

/-- Lets the handler at a place hear an answer. -/
def hear (s : Console) (place : Nat) (h : Handler) (a : Answer) : Console × List Event :=
  let (h, result) := h.hear a
  ({ s with handlers := s.handlers.set place h }, Handler.reported result)

/-- Carries out what a handler at a place does. -/
def perform (s : Console) (place : Nat) (h : Handler) : Effect → Console × Outcome
  | .emit events => (s, ⟨events, []⟩)
  | .askRegistry =>
    let (s, events) := s.hear place h (.registry ⟨s.catalog, none⟩)
    (s, ⟨events, []⟩)
  | .askStore request =>
    let (service, reply) := s.service.call request
    let s := { s with service }
    match reply with
    | some e =>
      let (s, events) := s.hear place h (.store e)
      (s, ⟨events, [request]⟩)
    | none => (s, ⟨[], [request]⟩)

/-- Has the handler of a command run it. -/
def execute (s : Console) (c : Command) : Console × Outcome :=
  let place := c.registration.handler.place
  match s.handlers[place]? with
  | none => (s, ⟨[], []⟩)
  | some h =>
    let (h, result) := h.execute s.service.runs c
    let s := { s with handlers := s.handlers.set place h }
    match result with
    | .ok effect => s.perform place h effect
    | .error e => (s, ⟨Handler.report e, []⟩)

/-- Carries out what a line amounts to. -/
def dispatch (s : Console) : Dispatch → Console × Outcome
  | .inform event => (s, ⟨[event], []⟩)
  | .execute c => s.execute c

/-- Takes a line: one that asks for nothing is answered at once. -/
def submit (s : Console) (line : Line) : Console × Outcome :=
  if line.asks then s.dispatch (s.catalog.settle line) else (s, ⟨[Event.done], []⟩)

/-- Takes lines one after another. -/
def submitAll (s : Console) : List Line → Console × List Outcome
  | [] => (s, [])
  | line :: lines =>
    let (s, outcome) := s.submit line
    let (s, outcomes) := s.submitAll lines
    (s, outcome :: outcomes)

end Console

end ClusterConsole
