/-
Asking for the records of one status. `database` can be asked for all records of a type, and then the
handler takes those of the status out of the reply; or for the records with given ids, and then the
store does. Asked for all ids of the type, the two show the same (`filters_agree`).

Between a question and its reply the handler remembers the status in a slot, and a question that
fails leaves something there. That is harmless in every state that a session can come to
(`Sessions`): whoever asks next fills the slot anew (`submit_of_asks`).
-/
import ClusterConsole.Proofs.Database.Telling
import ClusterConsole.Proofs.Token.Blank

namespace ClusterConsole

/-! ## Records in the order of their ids -/

namespace Store

variable {s : Store}

/-- The records of a type are in ascending order of their ids. -/
theorem ascending_ids (h : s.Ordered) (t : DataType) :
    ((s.ofType t).map Record.id).Pairwise (· < ·) := by
  rw [List.pairwise_map]
  refine (h.filter _).imp_of_mem ?_
  intro r r' hr hr' hlt
  have htype : r.dataType = r'.dataType :=
    (mem_ofType.1 hr).2.trans (mem_ofType.1 hr').2.symm
  -- the types are the same, so the keys are in the order of the ids
  have hkeys : compare r.key r'.key = compare r.id r'.id := by
    show (compare r.dataType.rank r'.dataType.rank).then (compare r.id r'.id) = _
    rw [htype, Std.compare_self]
    rfl
  rw [hkeys] at hlt
  exact Std.compare_eq_lt.1 hlt

/-- The ids of the records of a type find these records. -/
theorem filterMap_get? (h : s.Ordered) (t : DataType) :
    ((s.ofType t).map Record.id).filterMap (s.get? t) = s.ofType t := by
  have hfound : ∀ r ∈ s.ofType t, s.get? t r.id = some r := by
    intro r hr
    obtain ⟨hmem, htype⟩ := mem_ofType.1 hr
    exact (get?_eq_some_iff h).2 ⟨hmem, htype, rfl⟩
  rw [List.filterMap_map]
  exact (List.filterMap_congr hfound).trans List.filterMap_some

/-- Reading by all ids of a type and by a status gives the records of the type that have it. -/
theorem apply_getByIds (h : s.Ordered) (t : DataType) (x : Bool) :
    s.apply (.getByIds t ((s.ofType t).map Record.id) (some x)) =
      (s, .records ((s.ofType t).filter (·.active == x))) := by
  show (s, Reply.records ((((s.ofType t).map Record.id).filterMap (s.get? t)).filter _)) = _
  rw [filterMap_get? h]
  rfl

end Store

/-! ## Data in canonical form -/

/-- All data of the store is in canonical form. -/
def Store.Canonical (s : Store) : Prop := ∀ r ∈ s.records, r.data.canonical = r.data

/-- Data that is added has been decoded, and so it is in canonical form. -/
theorem Outcome.Adds.canonical {o : Outcome} {before : Store} {r : Record} (h : o.Adds before r) :
    r.data.canonical = r.data := by
  obtain ⟨e, -, t, active, data, hdecode, rfl⟩ := h
  have hkept : (Message.request (.add t active data)).Kept := Message.kept_of_decode hdecode
  exact (hkept data (List.mem_singleton_self data)).1

/-- The service has a store that is in order and whose data is in canonical form. -/
def RecordService.Keeps (service : RecordService) : Prop :=
  ∃ st, service = .memory st ∧ st.Ordered ∧ st.Canonical

namespace Console

/-! ## Sessions -/

/-- The console with another record service. -/
def serving (s : Console) (service : RecordService) : Console := { s with service }

/-- What a console can have become in a session over a new store. Each line is answered before the
next one is taken. It finds the store, or it finds it closed, or something else comes in place of
the reply to it: `reply` may be any envelope, and the store may or may not have been reached. -/
inductive Sessions (s₀ : Console) : Console → Prop
  | start : Sessions s₀ (s₀.serving (.memory Store.empty))
  | answered {s : Console} (h : Sessions s₀ s) (line : Line) : Sessions s₀ (s.submit line).1
  | closed {s : Console} (h : Sessions s₀ s) (line : Line) :
      Sessions s₀ (((s.serving .closed).submit line).1.serving s.service)
  | garbled {s : Console} (h : Sessions s₀ s) (line : Line) (reply : Envelope)
      {service : RecordService}
      (hservice : service = s.service ∨ service = (s.submit line).1.service) :
      Sessions s₀ (((s.serving (.scripted [reply])).submit line).1.serving service)

theorem agrees_serving (s : Console) (service : RecordService) : s.Agrees (s.serving service) :=
  ⟨rfl, rfl⟩

/-- A line leaves a store in order, and its data in canonical form. -/
theorem keeps_submit {s : Console} (h : s.service.Keeps) (line : Line) :
    (s.submit line).1.service.Keeps := by
  obtain ⟨st, hservice, hordered, hcanonical⟩ := h
  obtain ⟨after, hafter, hordered', hcomes⟩ := comes_submit hordered hservice line
  exact ⟨after, hafter, hordered', hcomes.forall_mem hcanonical fun _ hadds => hadds.canonical⟩

namespace Sessions

variable {s₀ s : Console}

/-- A session leaves the catalog and the handlers as they are, short of their filters. -/
theorem agrees (h : Sessions s₀ s) : s₀.Agrees s := by
  -- a line is run by a console that differs from the last one in its service at most
  have hstep : ∀ {s : Console}, s₀.Agrees s → ∀ service line service',
      s₀.Agrees (((s.serving service).submit line).1.serving service') := by
    intro s hs service line service'
    exact ((hs.trans (agrees_serving s service)).trans (submit_frame _ line)).trans
      (agrees_serving _ service')
  induction h with
  | start => exact agrees_serving s₀ _
  | answered _ line ih => exact ih.trans (submit_frame _ line)
  | closed _ line ih => exact hstep ih _ line _
  | garbled _ line reply _ ih => exact hstep ih _ line _

theorem keeps (h : Sessions s₀ s) : s.service.Keeps := by
  induction h with
  | start => exact ⟨Store.empty, rfl, Store.ordered_empty, nofun⟩
  | answered _ line ih => exact keeps_submit ih line
  | closed _ line ih => exact ih
  | garbled _ line reply hservice ih =>
    rcases hservice with rfl | rfl
    · exact ih
    · exact keeps_submit ih line

end Sessions

/-! ## Lines -/

/-- The line that asks for all records of a type, to be filtered by a status. -/
def listStatus (t : DataType) (x : Bool) : Line :=
  Line.ofRaw ("database -t " ++ t.name ++ " -g -s " ++ Request.statusName x)

/-- The line that asks for the records of a type with some ids and with a status. -/
def listIds (t : DataType) (ids : List UInt64) (x : Bool) : Line :=
  Line.ofRaw ("database -t " ++ t.name ++ " --get=" ++ Database.idList ids ++ " -s " ++
    Request.statusName x)

variable {s : Console} {place : Nat}

theorem asks_listStatus (hdatabase : s.OnlyDatabase place) (t : DataType) (x : Bool) :
    s.Asks (listStatus t x) place (.getAll t) (some x) := by
  let options : List Text := ["-t", t.name, "-g", "-s", Request.statusName x]
  let p : ParsedOptions := ⟨[('g', []), ('s', [Request.statusName x]), ('t', [t.name])], []⟩
  have htokens : (listStatus t x).tokenize = .ok ⟨listStatus t x, ("database" : Text) :: options⟩ := by
    cases t <;> cases x <;> rfl
  have hoptions : Options.parse (some Database.options) options = .ok p := by
    cases t <;> cases x <;> rfl
  have hrequest : Database.request p = .ok (.getAll t) := by
    cases t <;> cases x <;> rfl
  have hpending : Database.pendingFilter (.getAll t) p = .ok (some x) := by
    cases x <;> rfl
  have hasks : (listStatus t x).asks = true := by
    cases t <;> cases x <;> rfl
  exact hdatabase.asks hasks htokens rfl hoptions hrequest hpending

theorem text_listIds (t : DataType) (ids : List UInt64) (x : Bool) :
    (listIds t ids x).text = "database -t " ++ t.name ++
      ' ' :: ("--get=" ++ Database.idList ids ++ ' ' :: ("-s " ++ Request.statusName x)) := by
  have htrim : (listIds t ids x).text = "database -t " ++ t.name ++ " --get=" ++
      Database.idList ids ++ " -s " ++ Request.statusName x := by
    refine Text.trim_eq_self_iff.2 ⟨by rintro c ⟨⟩; decide, ?_⟩
    intro c hc
    rw [List.getLast?_append] at hc
    cases x <;> cases hc <;> decide
  rw [htrim]
  simp

theorem tokenize_listIds (t : DataType) (ids : List UInt64) (x : Bool) :
    Token.tokenize (listIds t ids x).text = .ok
      [("database" : Text), "-t", t.name, "--get=" ++ Database.idList ids, "-s",
        Request.statusName x] := by
  have hfront : Token.tokenize ("database -t " ++ t.name) = .ok ["database", "-t", t.name] := by
    cases t <;> decide
  have hids : Token.tokenize ("--get=" ++ Database.idList ids) =
      .ok ["--get=" ++ Database.idList ids] := by
    refine Token.tokenize_plain (by simp) ?_
    intro c hc
    rcases List.mem_append.1 hc with hc | hc
    · exact List.all_eq_true.1 (by decide : ("--get=" : Text).all Token.isPlain = true) c hc
    · rcases Database.mem_idList hc with rfl | hdigit
      · decide
      · exact Token.isPlain_of_isDigit hdigit
  have hback : Token.tokenize ("-s " ++ Request.statusName x) =
      .ok ["-s", Request.statusName x] := by
    cases x <;> decide
  rw [text_listIds, Token.tokenize_append hfront (by decide), Token.tokenize_append hids (by decide),
    hback]
  rfl

theorem asks_listIds (hdatabase : s.OnlyDatabase place) (t : DataType) (ids : List UInt64)
    (x : Bool) : s.Asks (listIds t ids x) place (.getByIds t ids (some x)) none := by
  let options : List Text :=
    ["-t", t.name, "--get=" ++ Database.idList ids, "-s", Request.statusName x]
  have htokens : (listIds t ids x).tokenize =
      .ok ⟨listIds t ids x, ("database" : Text) :: options⟩ := by
    rw [Line.tokenize, tokenize_listIds]
    rfl
  have hoptions : Options.parse (some Database.options) options =
      .ok ⟨(Request.getByIds t ids (some x)).given, []⟩ := by
    cases t <;> cases x <;> rfl
  have hrequest := Request.request_given (r := .getByIds t ids (some x)) trivial
  have hasks : (listIds t ids x).asks = true := by
    rw [Line.asks, Line.isEmpty, Line.isComment, text_listIds]
    rfl
  exact hdatabase.asks hasks htokens rfl hoptions hrequest rfl

/-! ## What is shown -/

/-- What the operator sees of records: a line for each and then the end of the response, or that there
are none. -/
def showing : List Record → List Event
  | [] => [.output ⟨some "No records.", false, false⟩]
  | rs => rs.map (fun r => .output ⟨some r.line, true, false⟩) ++ [.output ⟨none, false, false⟩]

theorem recordEvents_eq (filter : Option Bool) (rs : List Record) :
    Database.recordEvents filter rs = showing (rs.filter fun r => filter.all (r.active == ·)) := by
  rw [Database.recordEvents]
  cases rs.filter fun r => filter.all (r.active == ·) with
  | nil => rfl
  | cons r rs => simp [showing, Event.listing, Event.line, Event.done]

/-- A line that asks the store to read is answered with the records that the store replies, as far as
they pass the filter for the reply, if all of them can be read back. -/
theorem events_of_asks {line : Line} {r : Request} {pending : Option Bool}
    (hasks : s.Asks line place r pending) {st : Store} (hservice : s.service = .memory st)
    (hr : r.reread = some r) {rs : List Record} (hreply : st.apply r = (st, .records rs))
    (hrs : ∀ r ∈ rs, r.reread = some r) :
    (s.submit line).2.events = showing (rs.filter fun r => pending.all (r.active == ·)) := by
  have hcall : st.call r.seal = (st, (Reply.records rs).seal) := by
    rw [st.call_of_some (r.request?_seal.trans hr), hreply]
  have hanswers := Handler.answers_hear pending rs
  rw [Answers, Record.mapM_reread_eq_some hrs] at hanswers
  obtain ⟨-, houtcome⟩ := submit_memory hasks hservice
  rw [houtcome, hcall, hanswers, recordEvents_eq]

/-- What is shown of the records of a type, by status and altogether. -/
structure FiltersAgree (s : Console) (st : Store) (t : DataType) (x : Bool) : Prop where
  /-- `ofType` gives the records of the type. -/
  ofType : ∀ r, r ∈ st.ofType t ↔ r ∈ st.records ∧ r.dataType = t
  /-- It gives them in ascending order of their ids. -/
  ascending : ((st.ofType t).map Record.id).Pairwise (· < ·)
  /-- The handler filters as the store does: asked for the status alone, the console says what it
  says when it is asked for all ids of the type as well. -/
  agree : (s.submit (listStatus t x)).2.events =
    (s.submit (listIds t ((st.ofType t).map Record.id) x)).2.events
  /-- It shows the records of the type that have the status. -/
  status : (s.submit (listStatus t x)).2.events = showing ((st.ofType t).filter (·.active == x))
  /-- Without a status it shows all records of the type. -/
  all : (s.submit (listAll t)).2.events = showing (st.ofType t)

/-- Filtering by status in the handler agrees with filtering in the store. Where `database` selects
only the handler of the database, after any session over a new store whose records are nested at most
124 deep and have only integers for numbers, asking for the records of a type with a status shows the
same as asking for all ids of the type with that status. -/
theorem filters_agree {s₀ : Console} (hdatabase : s₀.OnlyDatabase place) (h : Sessions s₀ s) :
    ∃ st, s.service = .memory st ∧
      ((∀ r ∈ st.records, r.data.depth ≤ 124 ∧ r.data.integral = true) →
        ∀ t x, FiltersAgree s st t x) := by
  obtain ⟨st, hservice, hordered, hcanonical⟩ := h.keeps
  refine ⟨st, hservice, fun hdata t x => ?_⟩
  have hs : s.OnlyDatabase place := hdatabase.of_agrees h.agrees
  have hreread : ∀ r ∈ st.ofType t, r.reread = some r := by
    intro r hr
    have hmem := (Store.mem_ofType.1 hr).1
    obtain ⟨hdepth, hintegral⟩ := hdata r hmem
    exact Record.reread_of_integral hintegral (hcanonical r hmem) (Nat.lt_succ_of_le hdepth)
  have hstatus : (s.submit (listStatus t x)).2.events =
      showing ((st.ofType t).filter (·.active == x)) :=
    events_of_asks (asks_listStatus hs t x) hservice rfl rfl hreread
  have hids : (s.submit (listIds t ((st.ofType t).map Record.id) x)).2.events =
      showing ((st.ofType t).filter (·.active == x)) := by
    have hreply := Store.apply_getByIds hordered t x
    have hevents := events_of_asks (asks_listIds hs t ((st.ofType t).map Record.id) x) hservice rfl
      hreply fun r hr => hreread r (List.mem_filter.1 hr).1
    rw [hevents]
    exact congrArg showing (List.filter_eq_self.2 fun r _ => rfl)
  have hall : (s.submit (listAll t)).2.events = showing (st.ofType t) := by
    rw [events_of_asks (asks_listAll hs t) hservice rfl rfl hreread]
    exact congrArg showing (List.filter_eq_self.2 fun r _ => rfl)
  exact
    { ofType := fun _ => Store.mem_ofType
      ascending := Store.ascending_ids hordered t
      agree := hstatus.trans hids.symm
      status := hstatus
      all := hall }

/-- The console of the default configuration with a record, after a deletion that has found the store
closed, and a question whose reply could not be read. -/
def stale : Console :=
  let added := ((standard.serving (.memory Store.empty)).submit
    (Line.ofRaw "database -t record -s inactive -a [7]")).1
  let refused := ((added.serving .closed).submit
    (Line.ofRaw "database -t record -d 1")).1.serving added.service
  ((refused.serving (.scripted [⟨"", []⟩])).submit (listStatus .record true)).1.serving
    refused.service

/-- The status of the question is still in the slot, and the record does not have it. -/
theorem filters_agree_stale :
    standard.OnlyDatabase 4 ∧ Sessions standard stale ∧
      stale.handlers[4]? = some (.database (some true)) ∧
      ∃ st, stale.service = .memory st ∧
        st.records.map Record.line = ["     1  record   inactive  [7]".toList] ∧
        (∀ r ∈ st.records, r.data.depth ≤ 124 ∧ r.data.integral = true) ∧
        ∀ t x, FiltersAgree stale st t x := by
  have hsession : Sessions standard stale := .garbled (.closed (.answered .start _) _) _ _ (.inl rfl)
  obtain ⟨st, hservice, hagree⟩ := filters_agree onlyDatabase_standard hsession
  have hrecords : (match stale.service with
      | .memory st => st.records.map Record.line == ["     1  record   inactive  [7]".toList] &&
          st.records.all fun r => decide (r.data.depth ≤ 124) && r.data.integral
      | _ => false) = true := by
    decide +kernel
  rw [hservice] at hrecords
  simp only [Bool.and_eq_true, beq_iff_eq, List.all_eq_true, decide_eq_true_iff] at hrecords
  exact ⟨onlyDatabase_standard, hsession, by decide +kernel, st, hservice, hrecords.1, hrecords.2,
    hagree hrecords.2⟩

end Console

end ClusterConsole
