/-
Every request to the record store can be spelled on the command line (`spelling_arrives`): its
options are written out, quoted and put into a line, and what the handler of the database then
sends, if the service runs, is decoded as the same request. Spelling goes through quoting, the
options, the values of the options and the wire; each of these is undone by a lemma of its own.
-/
import ClusterConsole.Proofs.Database.Asking
import ClusterConsole.Proofs.Database.Ids
import ClusterConsole.Proofs.Record.Wire
import ClusterConsole.Proofs.Token.Spelling

namespace ClusterConsole

/-! ## Options -/

namespace Request

/-- The option that says what to do. -/
def actionToken : Request → Text
  | .getAll _ => "--get"
  | .getByIds _ ids _ => "--get=" ++ Database.idList ids
  | .add _ _ data => "--add=" ++ data.write
  | .delete _ ids => "--delete=" ++ Database.idList ids

/-- The status that a request carries, if it carries one. -/
def status : Request → Option Bool
  | .getByIds _ _ active => active
  | .add _ active _ => some active
  | _ => none

/-- The option that names a status. -/
def statusToken (active : Bool) : Text :=
  "--status=" ++ (if active then "active" else "inactive" : Text)

/-- The options that ask for a request. -/
def optionTokens (r : Request) : List Text :=
  ("--type=" ++ r.dataType.name) :: r.actionToken :: (r.status.map statusToken).toList

/-- The tokens of the line that asks for a request. -/
def tokens (r : Request) : List Text := ("database" : Text) :: r.optionTokens

/-- The line that asks for a request: the command and its options, each in quotes. -/
def spelling (r : Request) : Text := Text.join " " (r.tokens.map Token.quote)

/-- The value of the option that names a status. -/
def statusName (active : Bool) : Text := if active then "active" else "inactive"

/-- What the options of a request are read as. -/
def given : Request → List (Char × List Text)
  | .getAll t => [('g', []), ('t', [t.name])]
  | .getByIds t ids active =>
    ('g', [Database.idList ids]) ::
      ((active.map fun b => ('s', [statusName b])).toList ++ [('t', [t.name])])
  | .add t active data => [('a', [data.write]), ('s', [statusName active]), ('t', [t.name])]
  | .delete t ids => [('d', [Database.idList ids]), ('t', [t.name])]

/-- The options are read as they are meant. The values attached to them may be any texts: each is
cut off at the first equals sign of its token and taken as it is. -/
theorem parse_optionTokens (r : Request) :
    Options.parse (some Database.options) r.optionTokens = .ok ⟨r.given, []⟩ := by
  cases r with
  | getAll t => rfl
  | getByIds t ids active =>
    cases active with
    | none => rfl
    | some b => rfl
  | add t active data => rfl
  | delete t ids => rfl

/-! ## Values -/

/-- What can be asked for: data in canonical form, of integers of 64 bits and nested so that the
message about it can be read, and no deletion without ids. -/
def Spellable : Request → Prop
  | .add t active data => data.canonical = data ∧ data.integral = true ∧
      (Request.add t active data).toJson.depth < Json.depthLimit
  | .delete _ ids => ids ≠ []
  | _ => True

theorem parseStatus_statusName (active : Bool) :
    Database.parseStatus (statusName active) = .ok active := by
  cases active <;> decide

theorem parse_name (t : DataType) : DataType.parse t.name = .ok t := by
  cases t <;> rfl

/-- The data of a request that can be asked for is not nested too deeply to be read back. -/
theorem depth_lt_of_spellable {t : DataType} {active : Bool} {data : Json}
    (h : (Request.add t active data).Spellable) : data.depth < Json.depthLimit - 1 := by
  have hdepth : (Request.add t active data).toJson.depth = data.depth + 1 := by
    simp [Request.toJson, Json.depth, Json.depthFields]
  have hlt := h.2.2
  rw [hdepth] at hlt
  simp only [Json.depthLimit] at hlt ⊢
  omega

theorem readValue_write {t : DataType} {active : Bool} {data : Json}
    (h : (Request.add t active data).Spellable) :
    Json.readValue (Utf8.encode data.write) = .ok data := by
  have hlt : data.depth < Json.depthLimit := by
    have := depth_lt_of_spellable h
    simp only [Json.depthLimit] at this ⊢
    omega
  have hread := Json.readValue_encode data
  rw [Json.rereadAt, if_pos hlt, Json.reread_of_integral data h.2.1, Option.map_some, h.1] at hread
  exact toOption_eq_some.1 hread

theorem dataTypeOf_given (r : Request) :
    Database.dataTypeOf ⟨r.given, []⟩ = .ok r.dataType := by
  cases r with
  | getByIds t ids active => cases active <;> exact parse_name t
  | getAll t | add t _ _ | delete t _ => exact parse_name t

theorem statusOf_given (r : Request) : Database.statusOf ⟨r.given, []⟩ = .ok r.status := by
  have hname : ∀ b, (Database.parseStatus (statusName b)).map some = .ok (some b) := by
    intro b
    rw [parseStatus_statusName]
    rfl
  cases r with
  | getByIds t ids active =>
    cases active with
    | none => rfl
    | some b => exact hname b
  | add t active data => exact hname active
  | getAll _ | delete _ _ => rfl

/-- The options of a request ask for it. -/
theorem request_given {r : Request} (h : r.Spellable) : Database.request ⟨r.given, []⟩ = .ok r := by
  rw [Database.request, dataTypeOf_given, statusOf_given]
  cases r with
  | getAll t => rfl
  | getByIds t ids active =>
    have hget : Database.getRequest t active (some (Database.idList ids)) =
        .ok (.getByIds t ids active) := by
      rw [Database.getRequest, Database.parseIds_idList]
      rfl
    cases active <;> exact hget
  | add t active data =>
    show Database.addRequest t (some active) data.write = _
    rw [Database.addRequest, readValue_write h]
    rfl
  | delete t ids =>
    show Database.deleteRequest t (Database.idList ids) = _
    rw [Database.deleteRequest, Database.parseIds_idList]
    cases ids with
    | nil => exact absurd rfl h
    | cons id ids => rfl

/-- A request that can be asked for is read back as it is. -/
theorem reread_of_spellable {r : Request} (h : r.Spellable) : r.reread = some r := by
  cases r with
  | add t active data =>
    rw [Request.reread, Json.rereadAt, if_pos (depth_lt_of_spellable h),
      Json.reread_of_integral data h.2.1, Option.map_some, h.1]
  | getAll _ | getByIds _ _ _ | delete _ _ => rfl

/-! ## The line -/

theorem tokens_ne_nil (r : Request) : r.tokens ≠ [] := List.cons_ne_nil _ _

/-- The line of a request is cut into the tokens that were quoted. -/
theorem tokenize_spelling (r : Request) :
    (Line.ofRaw r.spelling).tokenize = .ok ⟨Line.ofRaw r.spelling, r.tokens⟩ := by
  have htokens : Token.tokenize (Line.ofRaw r.spelling).text = .ok r.tokens :=
    Line.tokenize_quoted r.tokens_ne_nil
  rw [Line.tokenize, htokens]
  rfl

theorem ofTokens_tokens (r : Request) :
    CommandPath.ofTokens r.tokens = .ok Handler.databasePath := by
  have hleading : CommandPath.leading r.tokens = Handler.databasePath.segments := rfl
  rw [CommandPath.ofTokens, hleading, CommandPath.ofSegments_segments]

/-- The line of a request asks for something. -/
theorem asks_spelling (r : Request) : (Line.ofRaw r.spelling).asks = true :=
  Line.asks_quoted r.tokens_ne_nil

end Request

/-! ## The console -/

namespace Console

/-- Where `database` selects only the handler of the database, the line of a request asks for the
request. -/
theorem asks_spelling {s : Console} {place : Nat} (hdatabase : s.OnlyDatabase place) {r : Request}
    (hr : r.Spellable) : ∃ pending, s.Asks (Line.ofRaw r.spelling) place r pending := by
  have hrequest := Request.request_given hr
  have hpending : ∃ pending, Database.pendingFilter r ⟨r.given, []⟩ = .ok pending := by
    cases r with
    | getAll t => exact ⟨_, Request.statusOf_given (.getAll t)⟩
    | getByIds _ _ _ | add _ _ _ | delete _ _ => exact ⟨none, rfl⟩
  obtain ⟨pending, hpending⟩ := hpending
  exact ⟨pending, hdatabase.asks r.asks_spelling r.tokenize_spelling r.ofTokens_tokens
    r.parse_optionTokens hrequest hpending⟩

/-- Every request to the record store can be spelled on the command line and arrives intact: where
`database` selects only the handler of the database, its line makes the handler send a service that
runs exactly one envelope, and that is decoded as the request. Nothing is sent where no service
runs. -/
theorem spelling_arrives {s : Console} {place : Nat} (hdatabase : s.OnlyDatabase place)
    {r : Request} (hr : r.Spellable) :
    (s.service.runs = true → ∃ e, (s.submit (Line.ofRaw r.spelling)).2.requests = [e] ∧
      e.decode = .ok (.request r)) ∧
    (s.service.runs = false → (s.submit (Line.ofRaw r.spelling)).2 =
      ⟨Handler.report (.mailboxClosed "persistence"), []⟩) := by
  obtain ⟨pending, hasks⟩ := asks_spelling hdatabase hr
  refine ⟨fun hruns => ?_, fun hruns => ?_⟩
  · obtain ⟨service, reply, hcall⟩ := RecordService.call_of_runs hruns r.seal
    have hrequests : (s.submit (Line.ofRaw r.spelling)).2.requests = [r.seal] := by
      rw [submit_of_asks hasks hcall hruns]
    exact ⟨r.seal, hrequests, Request.decode_seal_eq_ok.2 (Request.reread_of_spellable hr)⟩
  · rw [submit_of_asks_closed hasks hruns]

/-- With the default configuration, a record whose data is an object with a quote, a backslash and
hyphens in it. -/
theorem spelling_arrives_quotes :
    standard.OnlyDatabase 4 ∧ standard.service.runs = true ∧
      (Request.add .record false (.object [("-'\\=", .array [.text "--"])])).Spellable ∧
      ∃ e, (standard.submit (Line.ofRaw (Request.add .record false
          (.object [("-'\\=", .array [.text "--"])])).spelling)).2.requests = [e] ∧
        e.decode = .ok (.request
          (.add .record false (.object [("-'\\=", .array [.text "--"])]))) := by
  have hspellable : (Request.add .record false
      (.object [("-'\\=", .array [.text "--"])])).Spellable := ⟨rfl, rfl, by decide⟩
  exact ⟨onlyDatabase_standard, rfl, hspellable,
    (spelling_arrives onlyDatabase_standard hspellable).1 rfl⟩

/-- Where the service has stopped, no envelope is sent. -/
theorem spelling_unsent_closed :
    let s : Console := { standard with service := .closed }
    s.OnlyDatabase 4 ∧ (Request.getAll .company).Spellable ∧
      (s.submit (Line.ofRaw (Request.getAll .company).spelling)).2.requests = [] ∧
      ¬ ∃ e, (s.submit (Line.ofRaw (Request.getAll .company).spelling)).2.requests = [e] := by
  intro s
  have hdatabase : s.OnlyDatabase 4 := ⟨onlyDatabase_standard.handler, onlyDatabase_standard.selected⟩
  obtain ⟨pending, hasks⟩ := asks_spelling hdatabase (r := .getAll .company) trivial
  have hnone : (s.submit (Line.ofRaw (Request.getAll .company).spelling)).2.requests = [] := by
    rw [submit_of_asks_closed hasks rfl]
  refine ⟨hdatabase, trivial, hnone, ?_⟩
  rintro ⟨e, hone⟩
  rw [hnone] at hone
  cases hone

end Console

end ClusterConsole
