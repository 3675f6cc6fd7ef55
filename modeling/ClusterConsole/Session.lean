/-
The session with the operator. A prompt is written, a line is read and handed on, and the events
that come back are rendered until one of them ends the response; events that are left over wait for
the lines that follow. `run` gives the transcript of a whole input.
-/
import ClusterConsole.ConsoleError
import ClusterConsole.Event

namespace ClusterConsole

/-! ## Rendering -/

/-- What follows when an event has been rendered. -/
inductive Next
  /-- The next event of the response. -/
  | wait
  /-- The next line of input. -/
  | read
  /-- Nothing: the session is over. -/
  | stop
deriving DecidableEq, Repr

/-- What is written after the report of an unrecognized line. -/
def helpHint : Text := "Type 'help' to list available commands."

namespace Event

/-- The lines that an event is rendered as. A report with an offset shows the line with a mark
under the place. -/
def rendering : Event → List Text
  | .output o => o.text.toList
  | .unrecognized line => [unrecognizedMessage line, helpHint]
  | .invalid _ message none => [message]
  | .invalid line message (some n) =>
    [message, "  " ++ line.text, "  " ++ List.replicate n ' ' ++ ['^']]

/-- What follows an event. -/
def next : Event → Next
  | .output o => if o.terminate then .stop else if o.hasMore then .wait else .read
  | .unrecognized _ => .read
  | .invalid _ _ _ => .read

/-- The text of an event. -/
def render (e : Event) : Text := e.rendering.flatMap (· ++ ['\n'])

end Event

/-- Renders events up to the first one after which nothing is waited for: the text, what follows,
and the events that are left. -/
def renderResponse : List Event → Text × Next × List Event
  | [] => ([], .wait, [])
  | e :: es =>
    match e.next with
    | .wait =>
      let (text, next, left) := renderResponse es
      (e.render ++ text, next, left)
    | next => (e.render, next, es)

/-! ## Sessions -/

/-- What a session has written, the lines it has handed on and those of them that were taken, and
the error that ended it. -/
structure Transcript where
  output : Text
  handed : List Line
  taken : List Line
  error : Option ConsoleError
deriving DecidableEq

namespace Session

/-- The prompt of a session that is not given one. -/
def defaultPrompt : Text := "> "

/-- The raw lines of an input: its pieces after each newline, and what follows the last one. -/
def rawLines : Bytes → List Bytes
  | [] => []
  | b :: bs =>
    if b = 0x0A then [b] :: rawLines bs
    else match rawLines bs with
      | [] => [[b]]
      | piece :: pieces => (b :: piece) :: pieces

/-- The banner as it is written. -/
def bannerText (banner : Option Text) : Text :=
  match banner with
  | some b => b ++ ['\n']
  | none => []

/-- What stands between the session and a service that answers lines with events: lines that the
service has not yet taken, and events that are not yet rendered. The service takes lines only while
the session waits for an event. -/
structure State (σ : Type) where
  service : σ
  inbox : List Line := []
  events : List Event := []

/-- Hands lines to the service one after another, and collects its events. -/
def submitAll {σ : Type} (submit : σ → Line → σ × List Event) : σ → List Line → σ × List Event
  | s, [] => (s, [])
  | s, line :: lines =>
    let (s, events) := submit s line
    let (s, more) := submitAll submit s lines
    (s, events ++ more)

/-- How a session stands after a line. -/
structure Round (σ : Type) where
  text : Text
  handed : List Line
  taken : List Line
  /-- The state to go on from, or the error that ends the session if there is one. -/
  next : State σ ⊕ Option ConsoleError

/-- Renders the response to a line that is in the inbox. When the events run out the service takes
the inbox; waiting on for more than that gives ends the session with an error. -/
def respond {σ : Type} (submit : σ → Line → σ × List Event) (s : State σ) :
    Text × List Line × (State σ ⊕ Option ConsoleError) :=
  match renderResponse s.events with
  | (text, .read, left) => (text, [], .inl { s with events := left })
  | (text, .stop, _) => (text, [], .inr none)
  | (before, .wait, _) =>
    -- only now does the service see the lines that were handed on
    let (service, events) := submitAll submit s.service s.inbox
    let (text, next, left) := renderResponse events
    let rest := match next with
      | .read => .inl ⟨service, [], left⟩
      | .stop => .inr none
      | .wait => .inr (some (.mailboxClosed "console"))
    (before ++ text, s.inbox, rest)

/-- Takes one raw line and renders the response to it. -/
def step {σ : Type} (submit : σ → Line → σ × List Event) (s : State σ) (raw : Bytes) : Round σ :=
  match Utf8.decode raw with
  | .error f => ⟨[], [], [], .inr (some (.input f))⟩
  | .ok text =>
    let line := Line.ofRaw text
    let (text, taken, next) := respond submit { s with inbox := s.inbox ++ [line] }
    ⟨text, [line], taken, next⟩

/-- The transcript of the raw lines that are left. -/
def converse {σ : Type} (submit : σ → Line → σ × List Event) (prompt : Text) :
    State σ → List Bytes → Transcript
  | _, [] => ⟨prompt ++ ['\n'], [], [], none⟩
  | s, raw :: raws =>
    let r := step submit s raw
    match r.next with
    | .inl s =>
      let t := converse submit prompt s raws
      ⟨prompt ++ r.text ++ t.output, r.handed ++ t.handed, r.taken ++ t.taken, t.error⟩
    | .inr error => ⟨prompt ++ r.text, r.handed, r.taken, error⟩

/-- The transcript of an input; `submit` gives the events for each line. -/
def run {σ : Type} (submit : σ → Line → σ × List Event) (start : σ) (prompt : Text)
    (banner : Option Text) (input : Bytes) : Transcript :=
  let t := converse submit prompt { service := start } (rawLines input)
  { t with output := bannerText banner ++ t.output }

/-- Answers the n-th line with the n-th of the given lists of events, and further ones with none. -/
def answering : List (List Event) → Line → List (List Event) × List Event
  | [], _ => ([], [])
  | events :: rest, _ => (rest, events)

end Session

end ClusterConsole
