/-
How a line reaches the record store. A line either asks the store for something through a handler
of the database (`Console.Asks`) or leaves the record service alone (`submit_of_not_asks`); what
comes of a question is said by `submit_of_asks`. Where `database` selects only the handler of the
database, a line of that word and of options that can be read asks for what its options say
(`OnlyDatabase.asks`).
-/
import ClusterConsole.Proofs.Console.Response

namespace ClusterConsole

/-! ## Questions -/

/-- Options that can be read and ask for a request prepare it. -/
theorem Handler.prepared_ok {c : Command} {p : ParsedOptions} {r : Request} {pending : Option Bool}
    (hp : c.parseOptions = .ok p) (hr : Database.request p = .ok r)
    (hf : Database.pendingFilter r p = .ok pending) : prepared c = .ok (r, pending) := by
  have hparsed : parsed c = .ok p := by
    rw [parsed, hp]
    rfl
  exact bind_eq_ok.2 ⟨p, hparsed, bind_eq_ok.2 ⟨r, hr, bind_eq_ok.2 ⟨pending, hf, rfl⟩⟩⟩

namespace Console

/-- The line has the handler of the database at a place ask the store for a request, the reply to
which is to be filtered. -/
structure Asks (s : Console) (line : Line) (place : Nat) (r : Request) (pending : Option Bool) :
    Prop where
  asks : line.asks = true
  command : ∃ c, s.catalog.settle line = .execute c ∧ c.registration.handler.place = place ∧
    Handler.prepared c = .ok (r, pending)
  handler : ∃ filter, s.handlers[place]? = some (.database filter)

/-- The handler of the database is the same in consoles that agree, short of its filter. -/
theorem Agrees.database {s s' : Console} (h : s.Agrees s') {place : Nat} {filter : Option Bool}
    (hplace : s.handlers[place]? = some (.database filter)) :
    ∃ filter', s'.handlers[place]? = some (.database filter') := by
  obtain ⟨handler, hhandler, heq⟩ := h.symm.handler hplace
  cases handler with
  | database filter' => exact ⟨filter', hhandler⟩
  | help | exit | config _ | cluster _ | scripted _ => cases heq

/-- What a line asks does not depend on the filters. -/
theorem Asks.of_agrees {s s' : Console} {line : Line} {place : Nat} {r : Request}
    {pending : Option Bool} (h : s.Asks line place r pending) (ha : s.Agrees s') :
    s'.Asks line place r pending := by
  obtain ⟨filter, hplace⟩ := h.handler
  exact ⟨h.asks, by rw [ha.catalog]; exact h.command, ha.database hplace⟩

/-- The handler hears the reply to its question and has the filter for it, whatever filter was
there before. -/
theorem submit_of_asks {s : Console} {line : Line} {place : Nat} {r : Request}
    {pending : Option Bool} (h : s.Asks line place r pending) {service : RecordService}
    {e : Envelope} (hcall : s.service.call r.seal = (service, some e))
    (hruns : s.service.runs = true) :
    s.submit line = (⟨s.handlers.set place ((Handler.database pending).hear (.store e)).1,
      s.catalog, service⟩, ⟨Handler.reported ((Handler.database pending).hear (.store e)).2, [r.seal]⟩) := by
  obtain ⟨c, hsettle, rfl, hprepared⟩ := h.command
  obtain ⟨filter, hplace⟩ := h.handler
  have hx : (Handler.database filter).execute s.service.runs c =
      (.database pending, .ok (.askStore r.seal)) := by
    simp only [Handler.execute, Handler.executeDatabase_eq, hprepared, hruns, if_true]
  rw [submit, if_pos h.asks, hsettle, dispatch, execute_ok hplace hx,
    perform_askStore (s := s.withHandler _ _) hcall]
  have hset (h' : Handler) : (s.handlers.set c.registration.handler.place (.database pending)).set
      c.registration.handler.place h' = s.handlers.set c.registration.handler.place h' :=
    List.set_set _
  show (Console.mk ((s.handlers.set _ _).set _ _) _ _, _) = _
  rw [hset]
  rfl

/-- A service that does not run is not asked, and the response says so. -/
theorem submit_of_asks_closed {s : Console} {line : Line} {place : Nat} {r : Request}
    {pending : Option Bool} (h : s.Asks line place r pending) (hruns : s.service.runs = false) :
    s.submit line = (s.withHandler place (.database pending),
      ⟨Handler.report (.mailboxClosed "persistence"), []⟩) := by
  obtain ⟨c, hsettle, rfl, hprepared⟩ := h.command
  obtain ⟨filter, hplace⟩ := h.handler
  have hx : (Handler.database filter).execute s.service.runs c =
      (.database pending, .error (.mailboxClosed "persistence")) := by
    simp [Handler.execute, Handler.executeDatabase_eq, hprepared, hruns]
  rw [submit, if_pos h.asks, hsettle, dispatch, execute_error hplace hx]

/-- Reading all records is the only request whose reply may still have to be filtered. -/
theorem Asks.pending_eq_none {s : Console} {line : Line} {place : Nat} {r : Request}
    {pending : Option Bool} (h : s.Asks line place r pending) (hr : ∀ t, r ≠ .getAll t) :
    pending = none := by
  obtain ⟨c, -, -, hprepared⟩ := h.command
  obtain ⟨p, -, hprepared⟩ := bind_eq_ok.1 hprepared
  obtain ⟨r', -, hprepared⟩ := bind_eq_ok.1 hprepared
  obtain ⟨pending', hpending, hprepared⟩ := bind_eq_ok.1 hprepared
  cases hprepared
  cases r with
  | getAll t => exact absurd rfl (hr t)
  | getByIds _ _ _ | add _ _ _ | delete _ _ =>
    cases hpending
    rfl

/-- A line that asks the store for nothing sends nothing and leaves the record service alone. -/
theorem submit_of_not_asks {s : Console} {line : Line}
    (h : ∀ place r pending, ¬ s.Asks line place r pending) :
    (s.submit line).1.service = s.service ∧ (s.submit line).2.requests = [] := by
  rw [submit]
  split_ifs with hasks
  swap
  · exact ⟨rfl, rfl⟩
  cases hsettle : s.catalog.settle line with
  | inform event => exact ⟨rfl, rfl⟩
  | execute c =>
    show (s.execute c).1.service = s.service ∧ (s.execute c).2.requests = []
    cases hplace : s.handlers[c.registration.handler.place]? with
    | none =>
      rw [execute_none hplace]
      exact ⟨rfl, rfl⟩
    | some handler =>
      cases hx : handler.execute s.service.runs c with
      | mk handler' result =>
        cases result with
        | error e =>
          rw [execute_error hplace hx]
          exact ⟨rfl, rfl⟩
        | ok effect =>
          rw [execute_ok hplace hx]
          cases effect with
          | emit events => exact ⟨rfl, rfl⟩
          | askRegistry => exact ⟨rfl, rfl⟩
          | askStore request =>
            -- only the handler of the database asks the store, and then the line asks
            obtain ⟨filter, rfl⟩ : ∃ filter, handler = .database filter := by
              cases handler with
              | database filter => exact ⟨filter, rfl⟩
              | help | exit | cluster _ => cases hx
              | config c =>
                obtain ⟨-, hx⟩ := Prod.mk.inj hx
                obtain ⟨p, -, hp⟩ := map_eq_ok.1 hx
                cases hp
              | scripted script =>
                obtain ⟨-, hx⟩ := Prod.mk.inj hx
                obtain ⟨p, -, hp⟩ := map_eq_ok.1 hx
                cases hp
            obtain ⟨-, hx⟩ := Prod.mk.inj hx
            obtain ⟨-, r, hprepared, -⟩ := Handler.executeDatabase_ok (Prod.ext rfl hx)
            exact absurd ⟨hasks, ⟨c, hsettle, rfl, hprepared⟩, ⟨filter, hplace⟩⟩ (h _ _ _)

/-! ## Lines for the handler of the database -/

/-- The registration of the handler of the database at a place. -/
def databaseRegistration (place : Nat) : Registration :=
  ⟨⟨"database", place⟩, Handler.databasePath, some Database.options,
    some "Query and modify stored records"⟩

/-- `database` selects the registration of a running handler of the database, and no other. -/
structure OnlyDatabase (s : Console) (place : Nat) : Prop where
  handler : ∃ filter, s.handlers[place]? = some (.database filter)
  selected : (s.catalog.select [Handler.databasePath]).entries = [databaseRegistration place]

theorem onlyDatabase_standard : standard.OnlyDatabase 4 := ⟨⟨none, rfl⟩, rfl⟩

/-- Lines leave it so. -/
theorem OnlyDatabase.of_agrees {s s' : Console} {place : Nat} (h : s.OnlyDatabase place)
    (ha : s.Agrees s') : s'.OnlyDatabase place := by
  obtain ⟨filter, hplace⟩ := h.handler
  exact ⟨ha.database hplace, by rw [ha.catalog]; exact h.selected⟩

/-- A command that reaches the handler of the database is the one that this handler registers. -/
theorem Served.registration_eq {s : Console} (hserved : s.Served) {line : Line} {c : Command}
    (hsettle : s.catalog.settle line = .execute c) {filter : Option Bool}
    (hplace : s.handlers[c.registration.handler.place]? = some (.database filter)) :
    c.registration = databaseRegistration c.registration.handler.place := by
  have hselected : c.registration ∈ (s.catalog.select [c.registration.path]).entries := by
    simp [Catalog.select_of_settle hsettle]
  obtain ⟨handler, rs, hhandler, hrs, hmem⟩ := hserved _ (Catalog.mem_of_mem_select hselected)
  rw [hplace] at hhandler
  cases hhandler
  cases hrs
  exact List.mem_singleton.1 hmem

/-- Where a line asks the store for something, `database` selects the handler that it asks through,
and no other. -/
theorem Asks.onlyDatabase {s : Console} (hserved : s.Served) {line : Line} {place : Nat}
    {r : Request} {pending : Option Bool} (h : s.Asks line place r pending) :
    s.OnlyDatabase place := by
  obtain ⟨c, hsettle, rfl, -⟩ := h.command
  obtain ⟨filter, hplace⟩ := h.handler
  have hpath := Catalog.select_of_settle hsettle
  rw [hserved.registration_eq hsettle hplace] at hpath
  exact ⟨h.handler, hpath⟩

/-- A line of `database` and options that can be read asks for what the options say. -/
theorem OnlyDatabase.asks {s : Console} {place : Nat} (h : s.OnlyDatabase place) {line : Line}
    {options : List Text} {p : ParsedOptions} {r : Request} {pending : Option Bool}
    (hasks : line.asks = true)
    (hline : line.tokenize = .ok ⟨line, ("database" : Text) :: options⟩)
    (hpath : CommandPath.ofTokens (("database" : Text) :: options) = .ok Handler.databasePath)
    (hoptions : Options.parse (some Database.options) options = .ok p)
    (hrequest : Database.request p = .ok r)
    (hpending : Database.pendingFilter r p = .ok pending) : s.Asks line place r pending := by
  obtain ⟨tokens, htokens, heq⟩ := map_eq_ok.1 hline
  cases heq
  exact ⟨hasks, ⟨_, Catalog.settle_of_select htokens hpath h.selected hoptions, rfl,
    Handler.prepared_ok hoptions hrequest hpending⟩, h.handler⟩

end Console

end ClusterConsole
