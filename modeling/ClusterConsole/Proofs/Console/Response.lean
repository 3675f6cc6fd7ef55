/-
Every line gets one response with one end (`response_ends_once`): pieces of output with more to
follow and then a single event that ends it, whatever handler runs, whatever the record service
answers, and however often the line is sent back before it is dispatched. Only the handler of
`exit` and `quit` ends the session with it.
-/
import ClusterConsole.Proofs.Console.Wiring
import ClusterConsole.Proofs.Resolution.Settling

namespace ClusterConsole

/-! ## The shape of a response -/

namespace Event

/-- More of the same response follows the event, and the session goes on. -/
def continues : Event → Bool
  | .output o => o.hasMore && !o.terminate
  | _ => false

/-- The event ends the response. -/
def ends : Event → Bool
  | .output o => !o.hasMore
  | _ => true

/-- The event ends the session. -/
def terminates : Event → Bool
  | .output o => o.terminate
  | _ => false

end Event

/-- A whole response: events with more to follow, and one that ends it; `final` says whether that
one also ends the session. -/
def Responds (events : List Event) (final : Bool) : Prop :=
  ∃ shown last, events = shown ++ [last] ∧ (∀ e ∈ shown, e.continues = true) ∧
    last.ends = true ∧ last.terminates = final

theorem responds_single {e : Event} (h : e.ends = true) : Responds [e] e.terminates :=
  ⟨[], e, rfl, by simp, h, rfl⟩

/-- Lines of output, and a piece of output that ends the response and not the session. -/
def Tells (events : List Event) : Prop :=
  ∃ (lines : List Text) (text : Option Text),
    events = lines.map Event.line ++ [.output ⟨text, false, false⟩]

theorem Tells.responds {events : List Event} (h : Tells events) : Responds events false := by
  obtain ⟨lines, text, rfl⟩ := h
  refine ⟨lines.map Event.line, _, rfl, ?_, rfl, rfl⟩
  intro e he
  obtain ⟨t, -, rfl⟩ := List.mem_map.1 he
  rfl

theorem tells_listing (lines : List Text) : Tells (Event.listing lines) := ⟨lines, none, rfl⟩

theorem tells_last (t : Text) : Tells [Event.last t] := ⟨[], some t, rfl⟩

theorem tells_cluster (members : List ClusterMember) : Tells (Cluster.events members) := by
  unfold Cluster.events
  split
  · exact tells_last _
  · exact tells_listing _

theorem tells_config (c : Config) (key : Option Text) : Tells (c.events key) := by
  unfold Config.events
  split
  · exact tells_listing _
  · split
    · exact tells_listing _
    · exact tells_last _

theorem tells_records (filter : Option Bool) (records : List Record) :
    Tells (Database.recordEvents filter records) := by
  unfold Database.recordEvents
  split
  · exact tells_last _
  · exact tells_listing _

theorem tells_reply (filter : Option Bool) (r : Reply) : Tells (Database.replyEvents filter r) := by
  cases r with
  | records records => exact tells_records filter records
  | failure message => exact tells_last _

/-! ## Running a command -/

/-- A service that can be reached answers. -/
theorem RecordService.call_of_runs {s : RecordService} (h : s.runs = true) (e : Envelope) :
    ∃ s' reply, s.call e = (s', some reply) := by
  cases s with
  | memory store => exact ⟨_, _, rfl⟩
  | closed => cases h
  | scripted replies => cases replies <;> exact ⟨_, _, rfl⟩

namespace Handler

/-- The request that a `database` command asks for, and the filter for the reply to it. -/
def prepared (c : Command) : Except ConsoleError (Request × Option Bool) := do
  let p ← parsed c
  let request ← Database.request p
  return (request, ← Database.pendingFilter request p)

theorem executeDatabase_eq (filter : Option Bool) (runs : Bool) (c : Command) :
    executeDatabase filter runs c = match prepared c with
      | .error e => (filter, .error e)
      | .ok (request, pending) =>
        (pending, if runs then .ok (.askStore request.seal)
          else .error (.mailboxClosed "persistence")) := rfl

/-- A `database` command that comes to an effect asks a service that can be reached. -/
theorem executeDatabase_ok {filter filter' : Option Bool} {runs : Bool} {c : Command} {e : Effect}
    (h : executeDatabase filter runs c = (filter', .ok e)) :
    runs = true ∧ ∃ request, prepared c = .ok (request, filter') ∧ e = .askStore request.seal := by
  rw [executeDatabase_eq] at h
  cases hp : prepared c with
  | error err =>
    rw [hp] at h
    cases h
  | ok pair =>
    obtain ⟨request, pending⟩ := pair
    rw [hp] at h
    cases runs with
    | false => cases h
    | true =>
      cases h
      exact ⟨rfl, request, rfl, rfl⟩

/-- Whatever a handler of the database hears of a reply, it makes a response of it. -/
theorem tells_hear_store (filter : Option Bool) (e : Envelope) :
    Tells (reported ((Handler.database filter).hear (.store e)).2) := by
  rw [hear_store]
  cases e.openReply with
  | ok reply => exact tells_reply filter reply
  | error err => exact tells_last _

end Handler

namespace Console

/-- A handler that comes with the console makes a response of every command; that of `exit` ends
the session with it, and no other does. -/
theorem responds_execute {s : Console} {c : Command} {h : Handler}
    (hp : s.handlers[c.registration.handler.place]? = some h) (hs : h.isScripted = false) :
    Responds (s.execute c).2.events (decide (h = .exit)) := by
  cases hx : h.execute s.service.runs c with
  | mk h' result =>
    cases result with
    | error e =>
      rw [execute_error hp hx]
      -- the handler of `exit` cannot fail
      have hne : h ≠ .exit := by
        rintro rfl
        cases hx
      rw [decide_eq_false hne]
      exact (tells_last _).responds
    | ok effect =>
      rw [execute_ok hp hx]
      cases h with
      | help =>
        cases hx
        exact (tells_listing _).responds
      | exit =>
        cases hx
        exact responds_single rfl
      | config settings =>
        simp only [Handler.execute, Prod.mk.injEq] at hx
        obtain ⟨-, hx⟩ := hx
        obtain ⟨p, -, rfl⟩ := map_eq_ok.1 hx
        exact (tells_config _ _).responds
      | cluster members =>
        cases hx
        exact (tells_cluster _).responds
      | database filter =>
        simp only [Handler.execute, Prod.mk.injEq] at hx
        obtain ⟨rfl, hx⟩ := hx
        obtain ⟨hruns, request, -, rfl⟩ := Handler.executeDatabase_ok (Prod.ext rfl hx)
        obtain ⟨service, reply, hcall⟩ := RecordService.call_of_runs hruns request.seal
        rw [perform_askStore (s := s.withHandler _ _) hcall]
        exact (Handler.tells_hear_store _ reply).responds
      | scripted script => cases hs

/-- The response to a line that is dispatched has one end, in a console whose catalog leads to
handlers that come with it. -/
theorem responds_dispatch {s : Console} (hserved : s.Served)
    (hs : ∀ h ∈ s.handlers, h.isScripted = false) {line : Line} {d : Dispatch}
    (hd : Settles s.catalog line d) :
    ∃ final, Responds (s.dispatch d).2.events final ∧
      (final = true ↔ ∃ c, d = .execute c ∧
        s.handlers[c.registration.handler.place]? = some .exit) := by
  rcases Catalog.dispatch_of_settles hd with ⟨e, rfl, he⟩ | ⟨c, q, rfl, honly⟩
  · refine ⟨false, ?_, by simp⟩
    cases e with
    | output o => exact absurd rfl (he o)
    | unrecognized l => exact responds_single rfl
    | invalid l message offset => exact responds_single rfl
  · have hselected : c.registration ∈ (s.catalog.select [q]).entries := by simp [honly]
    obtain ⟨h, -, hp, -, -⟩ := hserved _ (Catalog.mem_of_mem_select hselected)
    refine ⟨decide (h = .exit), responds_execute hp (hs h (List.mem_of_getElem? hp)), ?_⟩
    rw [decide_eq_true_iff]
    constructor
    · rintro rfl
      exact ⟨c, rfl, hp⟩
    · rintro ⟨c', hc, hexit⟩
      cases hc
      rw [hp] at hexit
      exact Option.some.inj hexit

/-- The response of a console to a line has one end. -/
structure EndsOnce (s : Console) (line : Line) : Prop where
  /-- A line that asks for something comes to a dispatch, however often it is sent back. -/
  settles : line.asks = true →
    ∃ d, Settles s.catalog line d ∧ (s.submit line).2 = (s.dispatch d).2
  /-- The events are output with more to follow and then one event that ends the response, and
  that event ends the session exactly when the line has come to a command of the handler of `exit`
  and `quit`. -/
  ending : ∃ shown last, (s.submit line).2.events = shown ++ [last] ∧
    (∀ e ∈ shown, ∃ t, e = .output ⟨t, true, false⟩) ∧
    (∀ o, last = .output o → o.hasMore = false) ∧
    ((∃ o, last = .output o ∧ o.terminate = true) ↔
      line.asks = true ∧ ∃ command, Settles s.catalog line (.execute command) ∧
        s.handlers[command.registration.handler.place]? = some .exit)

/-- One end of response per line: in a console set up from any configuration that is accepted, with
the handlers that come with it and any record service, after any lines. The replies of a scripted
service are arbitrary, so it stands for any service that answers each request with one envelope. -/
theorem response_ends_once {c : Config} {service : Option RecordService} {s₀ : Console}
    (hsetup : setup c service [] = .ok s₀) (lines : List Line) (line : Line) :
    EndsOnce (s₀.submitAll lines).1 line := by
  set s := (s₀.submitAll lines).1 with hs₀
  have hserved : s.Served := (served_of_setup hsetup).of_agrees (submitAll_frame s₀ lines)
  have hs := isScripted_of_setup hsetup lines
  have hcontinues : ∀ e : Event, e.continues = true → ∃ t, e = .output ⟨t, true, false⟩ := by
    rintro (⟨t, more, final⟩ | _ | _) he
    · cases more <;> cases final <;> cases he
      exact ⟨t, rfl⟩
    · cases he
    · cases he
  have hends : ∀ e : Event, e.ends = true → ∀ o, e = .output o → o.hasMore = false := by
    rintro _ he o rfl
    simpa [Event.ends] using he
  have hterminates : ∀ e : Event, (∃ o, e = .output o ∧ o.terminate = true) ↔
      e.terminates = true := by
    rintro (o | _ | _) <;> simp [Event.terminates]
  cases ha : line.asks with
  | false =>
    have hsub : (s.submit line).2 = ⟨[Event.done], []⟩ := by
      rw [submit, if_neg (by simp [ha])]
    refine ⟨by simp [ha], [], Event.done, by rw [hsub]; rfl, by simp, hends _ rfl, ?_⟩
    rw [hterminates]
    simp [Event.done, Event.terminates, ha]
  | true =>
    have hsub : s.submit line = s.dispatch (s.catalog.settle line) := by rw [submit, if_pos ha]
    have hd := Catalog.settles_settle s.catalog line
    obtain ⟨final, ⟨shown, last, he, hshown, hlast, hfinal⟩, hexit⟩ :=
      responds_dispatch hserved hs hd
    refine ⟨fun _ => ⟨_, hd, by rw [hsub]⟩, shown, last, by rw [hsub]; exact he,
      fun e he => hcontinues e (hshown e he), hends last hlast, ?_⟩
    rw [hterminates, hfinal, hexit]
    constructor
    · rintro ⟨command, hcommand, hplace⟩
      exact ⟨ha, command, hcommand ▸ hd, hplace⟩
    · rintro ⟨-, command, hcommand, hplace⟩
      exact ⟨command, hd.unique hcommand, hplace⟩

/-- With the default configuration, the ambiguous line `c` is one that is sent back for help. -/
theorem response_ends_once_ambiguous :
    setup {} (some (.memory Store.empty)) [] = .ok standard ∧
      EndsOnce (standard.submitAll [Line.ofRaw "quit now"]).1 (Line.ofRaw "c") :=
  ⟨setup_standard, response_ends_once setup_standard _ _⟩

end Console

end ClusterConsole
