/-
What the operator is told of the store, and what has happened to it. The two agree on a line
(`Console.Faithful`) exactly when the reply to it can be read: a record whose data is nested 125 or
126 deep is stored, but the reply that carries it is refused, so that the operator is told of an
error (`faithful_iff`, `told_truly_iff`). While only records are added that can be shown as they are,
such as those of integers that are not nested too deeply (`Record.legible_of_integral`), the two agree
on every line (`faithfulRun_of_addsLegible`).
-/
import ClusterConsole.Proofs.Database.Spelling
import ClusterConsole.Proofs.Store.Wire

namespace ClusterConsole

/-! ## Lists of results -/

section Lists

variable {α β γ : Type} {f : α → Option β} {as : List α}

theorem mapM_eq_none_iff : as.mapM f = none ↔ ∃ a ∈ as, f a = none := by
  induction as with
  | nil => simp
  | cons a as ih =>
    rw [List.mapM_cons]
    cases ha : f a with
    | none => simp [ha]
    | some b =>
      cases has : as.mapM f with
      | none =>
        obtain ⟨x, hx, hfx⟩ := ih.1 has
        simp only [Option.bind_eq_bind, Option.bind_some, Option.bind_none, true_iff]
        exact ⟨x, by simp [hx], hfx⟩
      | some bs =>
        have hall : ¬ ∃ x ∈ as, f x = none := by simp [← ih, has]
        simpa [ha] using hall

/-- The results, seen through `p`, are the list seen through `q` when each single one is. -/
theorem map_eq_map_iff_of_mapM {bs : List β} (h : as.mapM f = some bs) (p : β → γ) (q : α → γ) :
    bs.map p = as.map q ↔ ∀ a ∈ as, (f a).map p = some (q a) := by
  induction as generalizing bs with
  | nil =>
    cases h
    simp
  | cons a as ih =>
    rw [List.mapM_cons] at h
    obtain ⟨b, hb, h⟩ := Option.bind_eq_some_iff.1 h
    obtain ⟨bs', hbs, h⟩ := Option.bind_eq_some_iff.1 h
    cases h
    rw [List.map_cons, List.map_cons, List.cons.injEq, ih hbs, List.forall_mem_cons, hb]
    simp

theorem ne_nil_of_mapM {bs : List β} (h : as.mapM f = some bs) (hne : as ≠ []) : bs ≠ [] := by
  cases as with
  | nil => exact absurd rfl hne
  | cons a as =>
    rw [List.mapM_cons] at h
    obtain ⟨b, -, h⟩ := Option.bind_eq_some_iff.1 h
    obtain ⟨bs', -, h⟩ := Option.bind_eq_some_iff.1 h
    cases h
    simp

end Lists

/-! ## Records on the way to the operator -/

namespace Record

/-- A reply that carries the record can be read. -/
def Readable (r : Record) : Prop := r.reread ≠ none

/-- A reply that carries the record can be read, and shows the line of the record. -/
def Legible (r : Record) : Prop := r.reread.map line = some r.line

theorem readable_iff {r : Record} :
    r.Readable ↔ r.data.depth < Json.depthLimit - 3 ∧ r.data.reread ≠ none := by
  unfold Readable reread Json.rereadAt
  split_ifs with h
  · simp [h]
  · simp [h]

/-- The lines of a record with other data agree when the texts of the data do. -/
theorem line_inj {r : Record} {data : Json} :
    ({ r with data } : Record).line = r.line ↔ data.write = r.data.write := by
  unfold line
  exact List.append_right_inj _

/-- A record is legible when its data is nested less than 125 deep and its text is read back as
data with the same text. -/
theorem legible_iff {r : Record} :
    r.Legible ↔ r.data.depth < Json.depthLimit - 3 ∧
      ∃ w, r.data.reread = some w ∧ w.canonical.write = r.data.write := by
  unfold Legible reread Json.rereadAt
  split_ifs with h
  · cases r.data.reread with
    | none =>
      constructor
      · rintro ⟨⟩
      · rintro ⟨-, w, ⟨⟩, -⟩
    | some w =>
      rw [Option.map_some, Option.map_some, Option.some.injEq, line_inj]
      constructor
      · intro hw
        exact ⟨h, w, rfl, hw⟩
      · rintro ⟨-, _, ⟨⟩, hw⟩
        exact hw
  · constructor
    · rintro ⟨⟩
    · rintro ⟨hlt, -⟩
      exact absurd hlt h

theorem Legible.readable {r : Record} (h : r.Legible) : r.Readable := by
  intro hnone
  rw [Legible, hnone] at h
  cases h

/-- A record of integers that is not nested too deeply is legible. -/
theorem legible_of_integral {r : Record} (hcanonical : r.data.canonical = r.data)
    (hintegral : r.data.integral = true) (hdepth : r.data.depth < Json.depthLimit - 3) :
    r.Legible := by
  rw [Legible, reread_of_integral hintegral hcanonical hdepth, Option.map_some]

end Record

/-! ## Responses -/

/-- The event reports an error. -/
def Event.isError : Event → Prop
  | .output o => ∃ t, o.text = some t ∧
    (("error: " : Text) <+: t ∨ ("database error: " : Text) <+: t)
  | _ => True

/-- The response ends with the report of an error. -/
def EndsInError (events : List Event) : Prop := ∃ e, events.getLast? = some e ∧ e.isError

theorem endsInError_report (e : ConsoleError) : EndsInError (Handler.report e) :=
  ⟨_, rfl, _, rfl, Or.inl (List.prefix_append _ _)⟩

theorem not_endsInError_listing (lines : List Text) : ¬ EndsInError (Event.listing lines) := by
  rintro ⟨e, he, herror⟩
  rw [Event.listing, List.getLast?_append] at he
  cases he
  obtain ⟨t, ht, -⟩ := herror
  cases ht

theorem not_endsInError_records (filter : Option Bool) (rs : List Record) :
    ¬ EndsInError (Database.recordEvents filter rs) := by
  unfold Database.recordEvents
  split
  · rintro ⟨e, he, herror⟩
    cases he
    obtain ⟨t, ht, hprefix⟩ := herror
    cases ht
    rcases hprefix with hprefix | hprefix
    · exact absurd hprefix (by decide)
    · exact absurd hprefix (by decide)
  · exact not_endsInError_listing _

/-- Shown without a filter, at least one record makes a listing. -/
theorem recordEvents_none {rs : List Record} (h : rs ≠ []) :
    Database.recordEvents none rs = Event.listing (rs.map Record.line) := by
  have hall : rs.filter (fun r => (none : Option Bool).all (r.active == ·)) = rs :=
    List.filter_eq_self.2 fun r _ => rfl
  rw [Database.recordEvents, hall]
  cases rs with
  | nil => exact absurd rfl h
  | cons r rs => rfl

theorem listing_inj {ts us : List Text} (h : Event.listing ts = Event.listing us) : ts = us := by
  have hlines : ts.map Event.line = us.map Event.line := List.append_cancel_right h
  refine List.map_injective_iff.2 ?_ hlines
  intro t u htu
  cases htu
  rfl

/-! ## The way to the store and back -/

/-- A request that is read back is run by the store; any other is refused and changes nothing. -/
theorem Store.call_seal (s : Store) (r : Request) :
    (∃ r', r.reread = some r' ∧ s.call r.seal = ((s.apply r').1, (s.apply r').2.seal)) ∨
      (r.reread = none ∧ ∃ message, s.call r.seal = (s, (Reply.failure message).seal)) := by
  cases hread : r.reread with
  | some r' => exact Or.inl ⟨r', rfl, s.call_of_some (r.request?_seal.trans hread)⟩
  | none => exact Or.inr ⟨rfl, s.call_of_none (r.request?_seal.trans hread)⟩

/-- What the operator sees of a reply that carries records: the records if the reply can be read,
and an error if it cannot. -/
def Answers (filter : Option Bool) (rs : List Record) (events : List Event) : Prop :=
  match rs.mapM Record.reread with
  | some rs' => events = Database.recordEvents filter rs'
  | none => ∃ e, events = Handler.report e

theorem Handler.answers_hear (filter : Option Bool) (rs : List Record) :
    Answers filter rs
      (reported ((Handler.database filter).hear (.store (Reply.records rs).seal)).2) := by
  rw [hear_store, Answers]
  cases hread : rs.mapM Record.reread with
  | some rs' =>
    have hreply : (Reply.records rs).reread = some (.records rs') := by
      rw [Reply.reread, hread, Option.map_some]
    rw [Reply.openReply_seal_eq_ok.2 hreply]
    rfl
  | none =>
    have hreply : (Reply.records rs).seal.openReply.toOption = none := by
      rw [Reply.openReply_seal, Reply.reread, hread, Option.map_none]
    obtain ⟨e, he⟩ := toOption_eq_none.1 hreply
    rw [he]
    exact ⟨e, rfl⟩

/-- An answer shows the lines of all records when each of them is legible. -/
theorem Answers.listing_iff {rs : List Record} {events : List Event} (h : Answers none rs events)
    (hne : rs ≠ []) : events = Event.listing (rs.map Record.line) ↔ ∀ r ∈ rs, r.Legible := by
  unfold Answers at h
  cases hread : rs.mapM Record.reread with
  | none =>
    rw [hread] at h
    obtain ⟨e, rfl⟩ := h
    obtain ⟨r, hr, hnone⟩ := mapM_eq_none_iff.1 hread
    -- an error is no listing, and some record cannot be read back: neither side holds
    constructor
    · intro heq
      have herror := endsInError_report e
      rw [heq] at herror
      exact absurd herror (not_endsInError_listing _)
    · intro hall
      exact absurd hnone (hall r hr).readable
  | some rs' =>
    rw [hread] at h
    rw [h, recordEvents_none (ne_nil_of_mapM hread hne)]
    have hlines := map_eq_map_iff_of_mapM hread Record.line Record.line
    constructor
    · intro heq
      exact hlines.1 (listing_inj heq)
    · intro hall
      rw [hlines.2 hall]

/-- An answer ends in an error when one of the records cannot be read back. -/
theorem Answers.endsInError_iff {filter : Option Bool} {rs : List Record} {events : List Event}
    (h : Answers filter rs events) : EndsInError events ↔ ∃ r ∈ rs, ¬ r.Readable := by
  unfold Answers at h
  cases hread : rs.mapM Record.reread with
  | none =>
    rw [hread] at h
    obtain ⟨e, rfl⟩ := h
    obtain ⟨r, hr, hnone⟩ := mapM_eq_none_iff.1 hread
    exact ⟨fun _ => ⟨r, hr, fun hreadable => hreadable hnone⟩, fun _ => endsInError_report e⟩
  | some rs' =>
    rw [hread] at h
    constructor
    · intro herror
      rw [h] at herror
      exact absurd herror (not_endsInError_records _ _)
    · rintro ⟨r, hr, hnot⟩
      have hnone : rs.mapM Record.reread = none :=
        mapM_eq_none_iff.2 ⟨r, hr, not_not.1 hnot⟩
      rw [hnone] at hread
      cases hread

/-! ## What a line does to the store -/

/-- An envelope that reached the store asked it to add the record. -/
def Outcome.Adds (o : Outcome) (before : Store) (r : Record) : Prop :=
  ∃ e ∈ o.requests, ∃ t active data, e.decode = .ok (.request (.add t active data)) ∧
    r = ⟨before.nextId, t, active, data⟩

/-- A record is in the store before a line, and is gone after it without another being added. -/
structure Store.Removes (before after : Store) (r : Record) : Prop where
  nextId : after.nextId = before.nextId
  mem : r ∈ before.records
  not_mem : r ∉ after.records

theorem Outcome.adds_seal_iff {o : Outcome} {before : Store} {r : Request} {record : Record}
    (ho : o.requests = [r.seal]) : o.Adds before record ↔
      ∃ t active data, r.reread = some (.add t active data) ∧
        record = ⟨before.nextId, t, active, data⟩ := by
  unfold Adds
  rw [ho]
  simp only [List.mem_singleton, exists_eq_left, Request.decode_seal_eq_ok]

/-- What a line comes to, over a store: nothing happens to the store, or a record is added to it,
or some are removed from it, and the operator is answered with those. -/
inductive Comes (before after : Store) (o : Outcome) : Prop
  | unchanged (hafter : after = before) (hadds : ∀ r, ¬ o.Adds before r)
  | added (r : Record)
      (hafter : after = ⟨before.nextId + 1, Ascending.insert Record.key r before.records⟩)
      (hadds : ∀ r', o.Adds before r' ↔ r' = r) (hanswers : Answers none [r] o.events)
  | removed (rs : List Record) (hadds : ∀ r, ¬ o.Adds before r)
      (hnext : after.nextId = before.nextId) (hsubset : ∀ r ∈ after.records, r ∈ before.records)
      (hremoves : ∀ r, r ∈ rs ↔ before.Removes after r) (hanswers : Answers none rs o.events)

/-- All records of the store are legible. -/
def Store.AllLegible (s : Store) : Prop := ∀ r ∈ s.records, r.Legible

/-- What holds of all records goes on to hold of them when it holds of those that are added. -/
theorem Comes.forall_mem {before after : Store} {o : Outcome} (h : Comes before after o)
    {P : Record → Prop} (hbefore : ∀ r ∈ before.records, P r) (hadds : ∀ r, o.Adds before r → P r) :
    ∀ r ∈ after.records, P r := by
  cases h with
  | unchanged hsame _ =>
    rw [hsame]
    exact hbefore
  | added r hafter hadded _ =>
    rw [hafter]
    intro r' hr'
    rcases Ascending.mem_insert _ _ hr' with rfl | hmem
    · exact hadds _ ((hadded _).2 rfl)
    · exact hbefore r' hmem
  | removed rs _ _ hsubset _ _ =>
    intro r hr
    exact hbefore r (hsubset r hr)

/-- A record that is added is among those of its type. -/
theorem Comes.mem_ofType {before after : Store} {o : Outcome} (h : Comes before after o)
    {r : Record} (hr : o.Adds before r) : r ∈ after.ofType r.dataType := by
  cases h with
  | unchanged _ hadds => exact absurd hr (hadds r)
  | removed _ hadds _ _ _ _ => exact absurd hr (hadds r)
  | added r' hafter hadds _ =>
    obtain rfl := (hadds r).1 hr
    have hmem : r ∈ after.records := by
      rw [hafter]
      exact Ascending.mem_insert_self _ _ _
    exact List.mem_filter.2 ⟨hmem, by simp⟩

/-- A record that is added is shown if it is legible. -/
theorem Comes.shown_of_legible {before after : Store} {o : Outcome} (h : Comes before after o)
    {r : Record} (hr : o.Adds before r) (hlegible : r.Legible) :
    o.events = Event.listing [r.line] := by
  cases h with
  | unchanged _ hadds => exact absurd hr (hadds r)
  | removed _ hadds _ _ _ _ => exact absurd hr (hadds r)
  | added r' _ hadds hanswers =>
    obtain rfl := (hadds r).1 hr
    refine (hanswers.listing_iff (by simp)).2 ?_
    intro r' hr'
    rwa [List.mem_singleton.1 hr']

/-- An error leaves the store as it was exactly when all that is added or removed can be read
back. -/
theorem Comes.unchanged_iff {before after : Store} {o : Outcome} (h : Comes before after o) :
    (EndsInError o.events → after = before) ↔
      (∀ r, o.Adds before r → r.Readable) ∧ ∀ r, before.Removes after r → r.Readable := by
  cases h with
  | unchanged hsame hadds =>
    constructor
    · intro _
      refine ⟨fun r hr => absurd hr (hadds r), ?_⟩
      rintro r ⟨-, hmem, hgone⟩
      rw [hsame] at hgone
      exact absurd hmem hgone
    · intro _ _
      exact hsame
  | added r hafter hadds hanswers =>
    -- a new record takes the next id, so the store has changed and nothing counts as removed
    have hnext : after.nextId ≠ before.nextId := by
      rw [hafter]
      show before.nextId + 1 ≠ before.nextId
      simp
    have hchanged : after ≠ before := fun hsame => hnext (congrArg Store.nextId hsame)
    constructor
    · intro hunchanged
      refine ⟨?_, fun r' hr' => absurd hr'.nextId hnext⟩
      intro r' hr'
      obtain rfl := (hadds r').1 hr'
      by_contra hnot
      exact hchanged (hunchanged (hanswers.endsInError_iff.2 ⟨r', by simp, hnot⟩))
    · rintro ⟨hreadable, -⟩ herror
      obtain ⟨r', hr', hnot⟩ := hanswers.endsInError_iff.1 herror
      obtain rfl := List.mem_singleton.1 hr'
      exact absurd (hreadable _ ((hadds _).2 rfl)) hnot
  | removed rs hadds _ _ hremoves hanswers =>
    constructor
    · intro hunchanged
      refine ⟨fun r hr => absurd hr (hadds r), ?_⟩
      intro r hr
      -- were it unreadable, the response would be an error, although the record is gone
      by_contra hnot
      have hsame := hunchanged (hanswers.endsInError_iff.2 ⟨r, (hremoves r).2 hr, hnot⟩)
      have hgone := hr.not_mem
      rw [hsame] at hgone
      exact hgone hr.mem
    · rintro ⟨-, hreadable⟩ herror
      obtain ⟨r, hr, hnot⟩ := hanswers.endsInError_iff.1 herror
      exact absurd (hreadable r ((hremoves r).1 hr)) hnot

namespace Console

theorem submit_memory {s : Console} {line : Line} {place : Nat} {r : Request}
    {pending : Option Bool} (h : s.Asks line place r pending) {before : Store}
    (hbefore : s.service = .memory before) :
    (s.submit line).1.service = .memory (before.call r.seal).1 ∧
      (s.submit line).2 = ⟨Handler.reported
        ((Handler.database pending).hear (.store (before.call r.seal).2)).2, [r.seal]⟩ := by
  have hcall : s.service.call r.seal =
      (.memory (before.call r.seal).1, some (before.call r.seal).2) := by
    rw [hbefore]
    rfl
  rw [submit_of_asks h hcall (by rw [hbefore]; rfl)]
  exact ⟨rfl, rfl⟩

/-- What a line comes to that asks a store for a request: the records that it adds or removes are
those that the operator is answered with. -/
theorem comes_apply {before : Store} (hordered : before.Ordered) {r : Request}
    {pending : Option Bool} (hpending : (∀ t, r ≠ .getAll t) → pending = none) {o : Outcome}
    (hadds : ∀ record, o.Adds before record ↔ ∃ t active data, r = .add t active data ∧
      record = ⟨before.nextId, t, active, data⟩)
    (hevents : o.events = Handler.reported
      ((Handler.database pending).hear (.store (before.apply r).2.seal)).2) :
    Comes before (before.apply r).1 o := by
  have hnone (hr : ∀ t active data, r ≠ .add t active data) : ∀ record, ¬ o.Adds before record := by
    intro record hrecord
    obtain ⟨t, active, data, heq, -⟩ := (hadds record).1 hrecord
    exact hr t active data heq
  cases r with
  | getAll _ | getByIds _ _ _ => exact .unchanged rfl (hnone nofun)
  | add t active data =>
    rw [hpending nofun] at hevents
    refine .added ⟨before.nextId, t, active, data⟩ rfl ?_ ?_
    · intro record
      rw [hadds]
      constructor
      · rintro ⟨_, _, _, ⟨⟩, rfl⟩
        rfl
      · rintro rfl
        exact ⟨t, active, data, rfl, rfl⟩
    · rw [hevents]
      exact Handler.answers_hear none _
  | delete t ids =>
    rw [hpending nofun, Store.apply_delete] at hevents
    rw [Store.apply_delete]
    split_ifs at hevents ⊢ with hmissing
    · refine .removed (before.remove t ids).2 (hnone nofun) (before.nextId_remove t ids) ?_ ?_ ?_
      · exact fun _ => Store.mem_of_mem_remove
      · intro record
        rw [Store.mem_remove hordered]
        constructor
        · rintro ⟨hmem, hgone⟩
          exact ⟨before.nextId_remove t ids, hmem, hgone⟩
        · rintro ⟨-, hmem, hgone⟩
          exact ⟨hmem, hgone⟩
      · rw [hevents]
        exact Handler.answers_hear none _
    · exact .unchanged rfl (hnone nofun)

/-- What a line does to the store of a console, and what is said of it. -/
theorem comes_submit {s : Console} {before : Store} (hordered : before.Ordered)
    (hbefore : s.service = .memory before) (line : Line) :
    ∃ after, (s.submit line).1.service = .memory after ∧ after.Ordered ∧
      Comes before after (s.submit line).2 := by
  by_cases hasks : ∃ place r pending, s.Asks line place r pending
  swap
  · push Not at hasks
    obtain ⟨hservice, hrequests⟩ := submit_of_not_asks hasks
    refine ⟨before, hservice.trans hbefore, hordered, .unchanged rfl ?_⟩
    rintro r ⟨e, he, -⟩
    rw [hrequests] at he
    cases he
  obtain ⟨place, r, pending, hasks⟩ := hasks
  obtain ⟨hservice, houtcome⟩ := submit_memory hasks hbefore
  refine ⟨_, hservice, Store.ordered_call hordered _, ?_⟩
  have hrequests : (s.submit line).2.requests = [r.seal] := by rw [houtcome]
  have hadds : ∀ record, (s.submit line).2.Adds before record ↔ ∃ t active data,
      r.reread = some (.add t active data) ∧ record = ⟨before.nextId, t, active, data⟩ :=
    fun _ => Outcome.adds_seal_iff hrequests
  rcases before.call_seal r with ⟨r', hr', hcall⟩ | ⟨hr', message, hcall⟩
  · -- the store runs the request that it has read, which differs from the one sent only in its data
    rw [hr'] at hadds
    simp only [Option.some.injEq] at hadds
    rw [hcall]
    refine comes_apply hordered ?_ hadds (by rw [houtcome, hcall])
    intro hne
    refine hasks.pending_eq_none ?_
    rintro t rfl
    cases hr'
    exact hne t rfl
  · rw [hcall]
    refine .unchanged rfl ?_
    intro record hrecord
    obtain ⟨t, active, data, hread, -⟩ := (hadds record).1 hrecord
    rw [hr'] at hread
    cases hread

/-! ## What is told and what has happened -/

/-- The line that asks for all records of a type. -/
def listAll (t : DataType) : Line := Line.ofRaw ("database -t " ++ t.name ++ " -g")

theorem asks_listAll {s : Console} {place : Nat} (hdatabase : s.OnlyDatabase place) (t : DataType) :
    s.Asks (listAll t) place (.getAll t) none := by
  have htokens : (listAll t).tokenize =
      .ok ⟨listAll t, ("database" : Text) :: [("-t" : Text), t.name, ("-g" : Text)]⟩ := by
    cases t <;> rfl
  have hoptions : Options.parse (some Database.options) [("-t" : Text), t.name, ("-g" : Text)] =
      .ok ⟨[('g', []), ('t', [t.name])], []⟩ := by
    cases t <;> rfl
  have hrequest : Database.request ⟨[('g', []), ('t', [t.name])], []⟩ = .ok (.getAll t) := by
    cases t <;> rfl
  have hpath : CommandPath.ofTokens
      (("database" : Text) :: [("-t" : Text), t.name, ("-g" : Text)]) =
      .ok Handler.databasePath := rfl
  have hpending : Database.pendingFilter (.getAll t) ⟨[('g', []), ('t', [t.name])], []⟩ =
      .ok none := rfl
  have hasks : (listAll t).asks = true := by
    cases t <;> rfl
  exact hdatabase.asks hasks htokens hpath hoptions hrequest hpending

/-- The lines of all records of a type are shown when each of them is legible. -/
theorem listAll_iff {s : Console} {place : Nat} (hdatabase : s.OnlyDatabase place) {st : Store}
    (hservice : s.service = .memory st) {t : DataType} (hne : st.ofType t ≠ []) :
    (s.submit (listAll t)).2.events = Event.listing ((st.ofType t).map Record.line) ↔
      ∀ r ∈ st.ofType t, r.Legible := by
  obtain ⟨-, houtcome⟩ := submit_memory (asks_listAll hdatabase t) hservice
  have hcall : st.call (Request.getAll t).seal = (st, (Reply.records (st.ofType t)).seal) :=
    st.call_of_some (Request.request?_seal (.getAll t))
  rw [houtcome, hcall]
  exact (Handler.answers_hear none (st.ofType t)).listing_iff hne

/-- What the operator is told of a line matches what it does to the store: if the response ends in
an error the store is as before, and if a record was added the response shows its line, and the
line that asks for all records of its type is answered with the lines of all that are stored. -/
structure Faithful (s : Console) (line : Line) (before after : Store) : Prop where
  unchanged : EndsInError (s.submit line).2.events → after = before
  shown : ∀ r, (s.submit line).2.Adds before r →
    (s.submit line).2.events = Event.listing [r.line] ∧
      ((s.submit line).1.submit (listAll r.dataType)).2.events =
        Event.listing ((after.ofType r.dataType).map Record.line)

/-- A line adds a record only where `database` selects the handler of the database. -/
theorem exists_onlyDatabase_of_adds {s : Console} (hserved : s.Served) {line : Line}
    {before : Store} {r : Record} (h : (s.submit line).2.Adds before r) :
    ∃ place, s.OnlyDatabase place := by
  by_cases hasks : ∃ place request pending, s.Asks line place request pending
  · obtain ⟨place, request, pending, hasks⟩ := hasks
    exact ⟨place, hasks.onlyDatabase hserved⟩
  · have hrequests := (submit_of_not_asks fun place request pending h =>
      hasks ⟨place, request, pending, h⟩).2
    obtain ⟨e, he, -⟩ := h
    rw [hrequests] at he
    cases he

/-- Telling matches happening exactly when each record that would have to be shown is legible, and
each record that is removed can be read back. -/
theorem faithful_iff {s : Console} {line : Line} {before after : Store} (hserved : s.Served)
    (hordered : before.Ordered) (hbefore : s.service = .memory before)
    (hafter : (s.submit line).1.service = .memory after) :
    s.Faithful line before after ↔
      (∀ r, (s.submit line).2.Adds before r → ∀ r' ∈ after.ofType r.dataType, r'.Legible) ∧
        ∀ r, before.Removes after r → r.Readable := by
  obtain ⟨after', hafter', -, hcomes⟩ := comes_submit hordered hbefore line
  rw [hafter] at hafter'
  cases hafter'
  have hfollows : ∀ r, (s.submit line).2.Adds before r →
      (((s.submit line).1.submit (listAll r.dataType)).2.events =
        Event.listing ((after.ofType r.dataType).map Record.line) ↔
          ∀ r' ∈ after.ofType r.dataType, r'.Legible) := by
    intro r hr
    obtain ⟨place, hdatabase⟩ := exists_onlyDatabase_of_adds hserved hr
    exact listAll_iff (hdatabase.of_agrees (submit_frame s line)) hafter
      (List.ne_nil_of_mem (hcomes.mem_ofType hr))
  constructor
  · rintro ⟨hunchanged, hshown⟩
    exact ⟨fun r hr => (hfollows r hr).1 (hshown r hr).2, (hcomes.unchanged_iff.1 hunchanged).2⟩
  · rintro ⟨hlegible, hreadable⟩
    have hadded : ∀ r, (s.submit line).2.Adds before r → r.Legible :=
      fun r hr => hlegible r hr r (hcomes.mem_ofType hr)
    refine ⟨hcomes.unchanged_iff.2 ⟨fun r hr => (hadded r hr).readable, hreadable⟩, ?_⟩
    intro r hr
    exact ⟨hcomes.shown_of_legible hr (hadded r hr), (hfollows r hr).2 (hlegible r hr)⟩

/-! ## Runs -/

/-- A console over a store keeps its records in order, whatever lines it takes. -/
theorem exists_ordered_submitAll {s : Console} {st : Store} (hordered : st.Ordered)
    (hservice : s.service = .memory st) (lines : List Line) :
    ∃ st', (s.submitAll lines).1.service = .memory st' ∧ st'.Ordered := by
  induction lines generalizing s st with
  | nil => exact ⟨st, hservice, hordered⟩
  | cons line lines ih =>
    obtain ⟨st', hservice', hordered', -⟩ := comes_submit hordered hservice line
    exact ih hordered' hservice'

/-- Every record that one of the lines has the console add is legible. -/
def AddsLegible (s : Console) : List Line → Prop
  | [] => True
  | line :: lines =>
    (∀ before r, s.service = .memory before → (s.submit line).2.Adds before r → r.Legible) ∧
      AddsLegible (s.submit line).1 lines

/-- Telling matches happening for each line of a run. -/
def FaithfulRun (s : Console) : List Line → Prop
  | [] => True
  | line :: lines =>
    (∃ before after, s.service = .memory before ∧ (s.submit line).1.service = .memory after ∧
      s.Faithful line before after) ∧ FaithfulRun (s.submit line).1 lines

/-- While only legible records are added, telling matches happening for each line of a run. -/
theorem faithfulRun_of_addsLegible {s : Console} (hserved : s.Served) {st : Store}
    (hservice : s.service = .memory st) (hordered : st.Ordered) (hlegible : st.AllLegible)
    {lines : List Line} (hadds : s.AddsLegible lines) : s.FaithfulRun lines := by
  induction lines generalizing s st with
  | nil => trivial
  | cons line lines ih =>
    obtain ⟨hline, hlines⟩ := hadds
    obtain ⟨after, hafter, hordered', hcomes⟩ := comes_submit hordered hservice line
    have hlegible' := hcomes.forall_mem hlegible fun r hr => hline st r hservice hr
    constructor
    · refine ⟨st, after, hservice, hafter, ?_⟩
      rw [faithful_iff hserved hordered hservice hafter]
      constructor
      · intro r _ r' hr'
        exact hlegible' r' (List.mem_filter.1 hr').1
      · intro r hr
        exact (hlegible r hr.mem).readable
    · exact ih (hserved.of_agrees (submit_frame s line)) hafter hordered' hlegible' hlines

/-- In a console that was set up over a new store, after any lines, what the operator is told of the
next line matches what happens to the store exactly when, if the line adds a record, all records of
its type are nested at most 124 deep and are read back with the text they have, and each record that
the line removes is nested at most 124 deep and can be read back. -/
theorem told_truly_iff {c : Config} {scripts : List Script} {s₀ : Console}
    (hsetup : setup c (some (.memory Store.empty)) scripts = .ok s₀) (lines : List Line)
    (line : Line) :
    ∃ before after, (s₀.submitAll lines).1.service = .memory before ∧
      ((s₀.submitAll lines).1.submit line).1.service = .memory after ∧
      ((s₀.submitAll lines).1.Faithful line before after ↔
        (∀ r, ((s₀.submitAll lines).1.submit line).2.Adds before r →
          ∀ r' ∈ after.ofType r.dataType, r'.data.depth ≤ 124 ∧
            ∃ w, r'.data.reread = some w ∧ w.canonical.write = r'.data.write) ∧
        ∀ r, before.Removes after r → r.data.depth ≤ 124 ∧ r.data.reread ≠ none) := by
  obtain ⟨hs, hs₀, -⟩ := eq_of_setup hsetup
  have hservice : s₀.service = .memory Store.empty := by
    rw [hs₀]
    rfl
  obtain ⟨before, hbefore, hordered⟩ := exists_ordered_submitAll Store.ordered_empty hservice lines
  obtain ⟨after, hafter, -⟩ := comes_submit hordered hbefore line
  have hserved := (served_of_setup hsetup).of_agrees (submitAll_frame s₀ lines)
  have hiff := faithful_iff hserved hordered hbefore hafter
  simp only [Record.legible_iff, Record.readable_iff] at hiff
  have hlimit : ∀ n, n < Json.depthLimit - 3 ↔ n ≤ 124 := fun n => Nat.lt_succ_iff
  simp only [hlimit] at hiff
  exact ⟨before, after, hbefore, hafter, hiff⟩

/-- With the default configuration, a line that adds a record of two lists. -/
theorem told_truly_iff_lists :
    setup {} (some (.memory Store.empty)) [] = .ok standard ∧
      ∃ before after,
        (standard.submitAll [listAll .record]).1.service = .memory before ∧
        ((standard.submitAll [listAll .record]).1.submit
          (Line.ofRaw "database -t record -a [[]]")).1.service = .memory after ∧
        ((standard.submitAll [listAll .record]).1.Faithful
            (Line.ofRaw "database -t record -a [[]]") before after ↔
          (∀ r, ((standard.submitAll [listAll .record]).1.submit
              (Line.ofRaw "database -t record -a [[]]")).2.Adds before r →
            ∀ r' ∈ after.ofType r.dataType, r'.data.depth ≤ 124 ∧
              ∃ w, r'.data.reread = some w ∧ w.canonical.write = r'.data.write) ∧
          ∀ r, before.Removes after r → r.data.depth ≤ 124 ∧ r.data.reread ≠ none) :=
  ⟨setup_standard, told_truly_iff setup_standard _ _⟩

/-! ## Data that is stored and cannot be shown -/

/-- A record whose data is nested 125 or 126 deep is stored, and the operator is told of an
error. -/
theorem endsInError_of_deep {s : Console} {place : Nat} (hdatabase : s.OnlyDatabase place)
    {before : Store} (hbefore : s.service = .memory before) {t : DataType} {active : Bool}
    {data : Json} (hr : (Request.add t active data).Spellable) (hdeep : 125 ≤ data.depth) :
    EndsInError (s.submit (Line.ofRaw (Request.add t active data).spelling)).2.events ∧
      (s.submit (Line.ofRaw (Request.add t active data).spelling)).1.service =
        .memory ⟨before.nextId + 1,
          Ascending.insert Record.key ⟨before.nextId, t, active, data⟩ before.records⟩ := by
  obtain ⟨pending, hasks⟩ := asks_spelling hdatabase hr
  obtain ⟨hservice, houtcome⟩ := submit_memory hasks hbefore
  have hcall : before.call (Request.add t active data).seal =
      ((before.apply (.add t active data)).1, (before.apply (.add t active data)).2.seal) :=
    before.call_of_some ((Request.request?_seal _).trans (Request.reread_of_spellable hr))
  rw [hservice, houtcome, hcall]
  refine ⟨?_, rfl⟩
  have hunreadable : ∃ r ∈ [(⟨before.nextId, t, active, data⟩ : Record)], ¬ r.Readable := by
    refine ⟨_, List.mem_singleton_self _, ?_⟩
    intro hreadable
    have hlt : data.depth < Json.depthLimit - 3 := (Record.readable_iff.1 hreadable).1
    simp only [Json.depthLimit] at hlt
    omega
  have hreply : (before.apply (.add t active data)).2 =
      .records [⟨before.nextId, t, active, data⟩] := rfl
  simp only [hreply]
  exact (Handler.answers_hear pending _).endsInError_iff.2 hunreadable

/-- A list in `n` others. -/
def nested : Nat → Json
  | 0 => .array []
  | n + 1 => .array [nested n]

theorem depth_nested (n : Nat) : (nested n).depth = n + 1 := by
  induction n with
  | zero => simp [nested, Json.depth, Json.depthItems]
  | succ n ih => simp [nested, Json.depth, Json.depthItems, ih]

theorem spellable_nested {n : Nat} (h : n ≤ 125) :
    (Request.add .record true (nested n)).Spellable := by
  refine ⟨?_, ?_, ?_⟩
  · clear h
    induction n with
    | zero => rfl
    | succ n ih => simp [nested, Json.canonical, Json.canonicalItems, ih]
  · clear h
    induction n with
    | zero => rfl
    | succ n ih => simp [nested, Json.integral, Json.integralItems, ih]
  · simp [Request.toJson, Json.depth, Json.depthFields, depth_nested, Json.depthLimit]
    omega

/-- In the console of the default configuration a list nested 125 deep is stored, while the response
is an error. -/
theorem told_falsely_nested :
    ∃ after, (standard.submit
        (Line.ofRaw (Request.add .record true (nested 124)).spelling)).1.service = .memory after ∧
      ¬ standard.Faithful (Line.ofRaw (Request.add .record true (nested 124)).spelling)
        Store.empty after := by
  obtain ⟨herror, hafter⟩ := endsInError_of_deep onlyDatabase_standard rfl
    (spellable_nested (show 124 ≤ 125 by decide)) (by rw [depth_nested])
  refine ⟨_, hafter, ?_⟩
  rintro ⟨hunchanged, -⟩
  have hsame := congrArg Store.nextId (hunchanged herror)
  exact absurd hsame (by decide)

end Console

end ClusterConsole
