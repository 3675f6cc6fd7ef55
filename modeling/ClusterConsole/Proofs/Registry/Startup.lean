/-
Starting the registry, with handlers that answer when they please and queries that come in at any
time. The request that a handler is sent for its registrations carries a reply address that answers
by itself, with no registrations, when it is let go unused (`ReplyAddress`); so whatever becomes of
the request, it leads to one response unless it is kept (`Conduct.Moves.due`, and `Tracks` along a
run). From this follows when queries are answered, and that neither the entries in the end nor the
answers depend on the order of events (`startup_concludes`).
-/
import ClusterConsole.Proofs.Registry.Arrivals

namespace ClusterConsole

/-! ## Requests for registrations -/

/-- The response without registrations. -/
def Response.empty : Response := ⟨Catalog.empty, none⟩

/-- Where a handler answers the request for its registrations. -/
structure ReplyAddress where
  used : Bool := false
deriving DecidableEq

namespace ReplyAddress

/-- What is delivered when the address is let go: if it has not been used, a response without
registrations. -/
def letGo (a : ReplyAddress) : List Response := if a.used then [] else [Response.empty]

/-- What is delivered when a response is sent: the address takes one, and is let go after it. -/
def send (a : ReplyAddress) (r : Response) : List Response :=
  (if a.used then [] else [r]) ++ letGo ⟨true⟩

theorem length_letGo_le (a : ReplyAddress) : a.letGo.length ≤ 1 := by
  unfold letGo
  split_ifs <;> simp

theorem length_send_le (a : ReplyAddress) (r : Response) : (a.send r).length ≤ 1 := by
  unfold send letGo
  split_ifs <;> simp_all

end ReplyAddress

/-- How far a handler has come with the request. -/
inductive Progress
  /-- The handler has not been asked yet. -/
  | unasked
  /-- The request waits in the mailbox of the handler. -/
  | waiting (a : ReplyAddress)
  /-- The handler has taken the request out of its mailbox. -/
  | taken (a : ReplyAddress)
  | ended
deriving DecidableEq

/-- The stages that the request has before it. -/
def Progress.ahead : Progress → Nat
  | .unasked => 3
  | .waiting _ => 2
  | .taken _ => 1
  | .ended => 0

namespace Conduct

/-- The next thing that becomes of the request to a handler, and what is delivered by it. -/
inductive Moves : Conduct → Progress → Progress → List Response → Prop
  | asked {c : Conduct} : Moves c .unasked (.waiting {}) []
  /-- The mailbox is closed, and what could not be sent is let go. -/
  | refused : Moves .gone .unasked .ended (ReplyAddress.letGo {})
  /-- The handler stops, and the request is let go with its mailbox. -/
  | lost {a : ReplyAddress} : Moves .gone (.waiting a) .ended a.letGo
  | took {c : Conduct} {a : ReplyAddress} (hruns : c ≠ .gone) : Moves c (.waiting a) (.taken a) []
  | answered {rs : List Registration} {a : ReplyAddress} :
      Moves (.answers rs) (.taken a) .ended (a.send (Response.ofList rs))
  /-- A handler that cannot state its registrations answers with none. -/
  | failed {a : ReplyAddress} : Moves .fails (.taken a) .ended (a.send Response.empty)
  | dropped {a : ReplyAddress} : Moves .drops (.taken a) .ended a.letGo

/-- What the handler still has to deliver. -/
def due (c : Conduct) : Progress → List Response
  | .unasked => c.response?.toList
  | .waiting a | .taken a => if a.used then [] else c.response?.toList
  | .ended => []

variable {c : Conduct} {p p' : Progress} {rs : List Response}

/-- What is delivered was due, and the rest remains so. -/
theorem Moves.due (h : c.Moves p p' rs) : c.due p = rs ++ c.due p' := by
  cases h with
  | asked | refused | took => rfl
  | lost | answered | failed | dropped =>
    simp only [Conduct.due, ReplyAddress.send, ReplyAddress.letGo]
    split_ifs <;> rfl

/-- The request moves on, and leads to at most one response at a time. -/
theorem Moves.ahead_lt (h : c.Moves p p' rs) : p'.ahead < p.ahead ∧ rs.length ≤ 1 := by
  cases h with
  | asked | took => exact ⟨by simp [Progress.ahead], by simp⟩
  | refused | lost | dropped => exact ⟨by simp [Progress.ahead], ReplyAddress.length_letGo_le _⟩
  | answered | failed => exact ⟨by simp [Progress.ahead], ReplyAddress.length_send_le _ _⟩

/-- The request to a handler that neither keeps it nor has stopped with it moves on. -/
theorem exists_moves (hended : p ≠ .ended) (htaken : ∀ a, p = .taken a → c ≠ .gone ∧ c ≠ .keeps) :
    ∃ p' rs, c.Moves p p' rs := by
  cases p with
  | unasked => exact ⟨_, _, .asked⟩
  | waiting a =>
    by_cases hgone : c = .gone
    · subst hgone
      exact ⟨_, _, .lost⟩
    · exact ⟨_, _, .took hgone⟩
  | taken a =>
    obtain ⟨hgone, hkeeps⟩ := htaken a rfl
    cases c with
    | answers rs => exact ⟨_, _, .answered⟩
    | fails => exact ⟨_, _, .failed⟩
    | drops => exact ⟨_, _, .dropped⟩
    | gone => exact absurd rfl hgone
    | keeps => exact absurd rfl hkeeps
  | ended => exact absurd rfl hended

/-- Only a request that is kept leads to no response. -/
theorem length_response? (c : Conduct) :
    c.response?.toList.length = if c = .keeps then 0 else 1 := by
  cases c <;> simp [response?]

/-- The registrations that the handler has. -/
def registrations : Conduct → List Registration
  | .answers rs => rs
  | .fails | .drops | .gone | .keeps => []

theorem mem_registrations {r : Response} (hr : c.response? = some r) {e : Registration}
    (he : e ∈ r.catalog.entries) : e ∈ c.registrations := by
  cases c with
  | answers rs =>
    cases hr
    rcases Catalog.mem_addAll he with h | h
    · cases h
    · exact h
  | fails | drops | gone =>
    cases hr
    cases he
  | keeps => cases hr

@[simp] theorem due_keeps (p : Progress) : due .keeps p = [] := by
  cases p <;> simp [due, response?]

/-- A handler that has stopped takes no request. -/
theorem Moves.taken (h : c.Moves p p' rs) {a : ReplyAddress} (hp : p' = .taken a) : c ≠ .gone := by
  cases h with
  | took hruns => exact hruns
  | _ => cases hp

end Conduct

/-! ## The registry and its handlers -/

/-- A handler that is asked for its registrations. -/
structure Asked where
  conduct : Conduct
  progress : Progress := .unasked
  /-- What has been delivered to the registry from it. -/
  sent : List Response := []

namespace Asked

/-- The handler after the request to it has moved on. -/
def proceed (h : Asked) (p : Progress) (rs : List Response) : Asked :=
  { h with progress := p, sent := h.sent ++ rs }

/-- What has been delivered from the handler and what is still due from it is the response of its
conduct. -/
structure Sound (h : Asked) : Prop where
  due : h.sent ++ h.conduct.due h.progress = h.conduct.response?.toList
  runs : ∀ a, h.progress = .taken a → h.conduct ≠ .gone

theorem Sound.proceed {h : Asked} {p : Progress} {rs : List Response} (hs : h.Sound)
    (hmoves : h.conduct.Moves h.progress p rs) : (h.proceed p rs).Sound := by
  refine ⟨?_, fun a ha => hmoves.taken ha⟩
  show h.sent ++ rs ++ h.conduct.due p = h.conduct.response?.toList
  rw [List.append_assoc, ← hmoves.due, hs.due]

end Asked

/-- The handlers of a start-up, by what they make of the request. Like any list in memory it is not
longer than 64 bits can tell. -/
structure Roster where
  conducts : List Conduct
  length_lt : conducts.length < UInt64.size

/-- The registry while it starts, and what has happened so far. -/
structure Startup (ρ : Type) where
  /-- The handlers, in the order in which they are asked. -/
  handlers : List Asked
  registry : Registry ρ
  /-- The messages that wait in the mailbox of the registry, the earliest first. -/
  mailbox : List (RegistryMessage ρ) := []
  /-- The messages that the registry has taken. -/
  served : List (RegistryMessage ρ) := []
  /-- The answers that the registry has given. -/
  answers : List (ρ × Response) := []

namespace Startup

variable {ρ : Type} {conducts : List Conduct} {s s' : Startup ρ}

/-- With the barrier on, before any handler is asked. -/
def start (conducts : List Conduct) : Startup ρ :=
  { handlers := conducts.map fun c => { conduct := c }, registry := Registry.asking true conducts }

/-- One step of the handlers or of the registry: the request to a handler moves on, where handlers
are asked in order, or the registry takes a message, once it has asked all handlers. -/
inductive Works : Startup ρ → Startup ρ → Prop
  | proceeds {s : Startup ρ} {before later : List Asked} {h : Asked} {p : Progress}
      {rs : List Response} (hs : s.handlers = before ++ h :: later)
      (hmoves : h.conduct.Moves h.progress p rs)
      (hturn : h.progress = .unasked → ∀ h' ∈ before, h'.progress ≠ .unasked) :
      Works s { s with
        handlers := before ++ h.proceed p rs :: later
        mailbox := s.mailbox ++ rs.map .registered }
  | serves {s : Startup ρ} {m : RegistryMessage ρ} {ms : List (RegistryMessage ρ)}
      (hasked : ∀ h ∈ s.handlers, h.progress ≠ .unasked) (hs : s.mailbox = m :: ms) :
      Works s { s with
        registry := (s.registry.handle m).1
        mailbox := ms
        served := s.served ++ [m]
        answers := s.answers ++ (s.registry.handle m).2 }

/-- A query comes in. -/
def receive (s : Startup ρ) (q : Query) (replyTo : ρ) : Startup ρ :=
  { s with mailbox := s.mailbox ++ [.query q replyTo] }

/-- Queries come in between the steps of the handlers and the registry. -/
inductive Step : Startup ρ → Startup ρ → Prop
  | works {s s' : Startup ρ} (h : Works s s') : Step s s'
  | receives {s : Startup ρ} (q : Query) (replyTo : ρ) : Step s (s.receive q replyTo)

/-- What some interleaving of the steps leads to. -/
def Reachable (roster : Roster) (s : Startup ρ) : Prop :=
  Relation.ReflTransGen Step (start roster.conducts) s

/-- Nothing is left to do unless another query comes in. -/
def Rests (s : Startup ρ) : Prop := ∀ s', ¬ Works s s'

/-- The messages that have come in, in the order of arrival. -/
def arrived (s : Startup ρ) : List (RegistryMessage ρ) := s.served ++ s.mailbox

/-- The queries that have come in, in the order of arrival. -/
def queries (s : Startup ρ) : List (Query × ρ) := received (s.arrived.map .deliver)

/-! ## What a run keeps -/

/-- The state of a run agrees with what has happened: the responses that have come in are those that
the handlers have delivered, and the registry has made of the messages that it has taken what it
makes of such operations. -/
structure Tracks (conducts : List Conduct) (s : Startup ρ) : Prop where
  counted : conducts.length < UInt64.size
  handlers : s.handlers.map Asked.conduct = conducts
  sound : ∀ h ∈ s.handlers, h.Sound
  delivered : (responses s.arrived).Perm (s.handlers.flatMap Asked.sent)
  registry : s.registry = Registry.after true (arrivals conducts.length s.served)
  answers : s.answers = Registry.answers true (arrivals conducts.length s.served)

theorem tracks_start (roster : Roster) :
    Tracks roster.conducts (start (ρ := ρ) roster.conducts) := by
  refine ⟨roster.length_lt, ?_, ?_, ?_, rfl, rfl⟩
  · simp [start, Function.comp_def]
  · intro h hh
    obtain ⟨c, -, rfl⟩ := List.mem_map.1 hh
    exact ⟨rfl, nofun⟩
  · simp [start, arrived, responses]

theorem Tracks.works (h : Tracks conducts s) (hw : Works s s') : Tracks conducts s' := by
  cases hw with
  | @proceeds before later handler p rs hs hmoves hturn =>
    have hsound := h.sound
    have hresponses := h.delivered
    rw [hs, List.forall_mem_append, List.forall_mem_cons] at hsound
    obtain ⟨hbefore, hhandler, hlater⟩ := hsound
    refine ⟨h.counted, ?_, ?_, ?_, h.registry, h.answers⟩
    · rw [← h.handlers, hs]
      simp [Asked.proceed]
    · exact List.forall_mem_append.2
        ⟨hbefore, List.forall_mem_cons.2 ⟨hhandler.proceed hmoves, hlater⟩⟩
    · -- the new responses come last in the mailbox, and after the others of their handler
      rw [hs, List.flatMap_append, List.flatMap_cons] at hresponses
      have harrived : s.served ++ (s.mailbox ++ rs.map .registered) =
          s.arrived ++ rs.map .registered := (List.append_assoc _ _ _).symm
      show (responses (s.served ++ (s.mailbox ++ rs.map .registered))).Perm
        ((before ++ handler.proceed p rs :: later).flatMap Asked.sent)
      rw [harrived, responses_append, responses_registered, List.flatMap_append, List.flatMap_cons]
      refine (hresponses.append_right rs).trans ?_
      simp only [Asked.proceed, List.append_assoc]
      exact ((List.perm_append_comm).append_left _).append_left _
  | @serves m ms hasked hs =>
    have harrived : s.served ++ [m] ++ ms = s.arrived := by
      rw [arrived, hs, List.append_assoc]
      rfl
    refine ⟨h.counted, h.handlers, h.sound, ?_, ?_, ?_⟩
    · show (responses (s.served ++ [m] ++ ms)).Perm _
      rw [harrived]
      exact h.delivered
    · rw [arrivals_concat, Registry.after_concat, ← h.registry]
      rfl
    · rw [arrivals_concat, Registry.answers_concat, Registry.answersTo, ← h.registry, ← h.answers]
      rfl

theorem Tracks.receive (h : Tracks conducts s) (q : Query) (replyTo : ρ) :
    Tracks conducts (s.receive q replyTo) := by
  refine ⟨h.counted, h.handlers, h.sound, ?_, h.registry, h.answers⟩
  have harrived : (s.receive q replyTo).arrived = s.arrived ++ [.query q replyTo] :=
    (List.append_assoc _ _ _).symm
  have hnone : responses [RegistryMessage.query q replyTo] = [] := rfl
  rw [harrived, responses_append, hnone, List.append_nil]
  exact h.delivered

theorem tracks_of_reachable {roster : Roster} (h : Reachable roster s) :
    Tracks roster.conducts s := by
  induction h with
  | refl => exact tracks_start roster
  | tail _ hstep ih =>
    cases hstep with
    | works hw => exact ih.works hw
    | receives q replyTo => exact ih.receive q replyTo

/-! ## Coming to rest -/

/-- What the handlers and the registry have before them: a stage of a request may lead to one more
message. -/
def work (s : Startup ρ) : Nat :=
  2 * (s.handlers.map fun h => h.progress.ahead).sum + s.mailbox.length

theorem Works.work_lt (h : Works s s') : s'.work < s.work := by
  cases h with
  | @proceeds before later handler p rs hs hmoves hturn =>
    obtain ⟨hahead, hlength⟩ := hmoves.ahead_lt
    simp only [work, hs, List.map_append, List.map_cons, List.sum_append, List.sum_cons,
      List.length_append, List.length_map, Asked.proceed]
    omega
  | serves hasked hs =>
    simp only [work, hs, List.length_cons]
    omega

/-- However the handlers and the registry take turns, they come to rest. -/
theorem wellFounded_works : WellFounded fun s' s : Startup ρ => Works s s' :=
  Subrelation.wf Works.work_lt (measure work).wf

theorem exists_rests (s : Startup ρ) :
    ∃ s', Relation.ReflTransGen Works s s' ∧ s'.Rests := by
  induction s using wellFounded_works.induction with
  | h s ih =>
    by_cases hrests : s.Rests
    · exact ⟨s, .refl, hrests⟩
    · obtain ⟨s', hw⟩ := not_forall_not.1 hrests
      obtain ⟨s'', hreaches, hrests'⟩ := ih s' hw
      exact ⟨s'', .head hw hreaches, hrests'⟩

/-- In a start-up at rest all messages have been taken, and every request is over unless its handler
keeps it. -/
theorem Tracks.of_rests (h : Tracks conducts s) (hrests : s.Rests) :
    s.mailbox = [] ∧
      ∀ handler ∈ s.handlers, handler.progress = .ended ∨ handler.conduct = .keeps := by
  have hasked : ∀ handler ∈ s.handlers, handler.progress ≠ .unasked := by
    -- the first handler that has not been asked could be asked
    intro handler hmem hunasked
    cases hfirst : s.handlers.find? fun handler => decide (handler.progress = .unasked) with
    | none => simpa [hunasked] using List.find?_eq_none.1 hfirst handler hmem
    | some first =>
      obtain ⟨hp, before, later, hs, hbefore⟩ := List.find?_eq_some_iff_append.1 hfirst
      have hmoves : first.conduct.Moves first.progress (.waiting {}) [] := by
        rw [of_decide_eq_true hp]
        exact .asked
      exact hrests _ (.proceeds hs hmoves fun _ h' hh' => by simpa using hbefore h' hh')
  constructor
  · cases hmailbox : s.mailbox with
    | nil => rfl
    | cons m ms => exact absurd (.serves hasked hmailbox) (hrests _)
  · intro handler hmem
    by_contra hnot
    obtain ⟨hended, hkeeps⟩ := not_or.1 hnot
    obtain ⟨p, rs, hmoves⟩ := Conduct.exists_moves hended fun a ha =>
      ⟨(h.sound handler hmem).runs a ha, hkeeps⟩
    obtain ⟨before, later, hs⟩ := List.append_of_mem hmem
    exact hrests _ (.proceeds hs hmoves fun hunasked => absurd hunasked (hasked handler hmem))

/-- Nothing moves any more when all messages have been taken and every request is over. -/
theorem rests_of_ended (hmailbox : s.mailbox = [])
    (hended : ∀ h ∈ s.handlers, h.progress = .ended) : s.Rests := by
  intro s' hw
  cases hw with
  | @proceeds before later handler p rs hs hmoves hturn =>
    rw [hended handler (by simp [hs])] at hmoves
    exact absurd hmoves.ahead_lt.1 (Nat.not_lt_zero _)
  | serves hasked hs =>
    rw [hmailbox] at hs
    cases hs

/-! ## Counting responses -/

/-- What has come in and what is still due make up the responses of all handlers. -/
theorem Tracks.responses_due (h : Tracks conducts s) :
    (responses s.arrived ++
      s.handlers.flatMap fun handler => handler.conduct.due handler.progress).Perm
        (conducts.filterMap Conduct.response?) := by
  have hall : s.handlers.flatMap (fun handler =>
      handler.sent ++ handler.conduct.due handler.progress) =
        conducts.filterMap Conduct.response? := by
    rw [List.filterMap_eq_flatMap_toList, ← h.handlers, List.flatMap_map]
    exact List.flatMap_congr fun handler hmem => (h.sound handler hmem).due
  rw [← hall]
  exact (h.delivered.append_right _).trans (List.flatMap_append_perm _ _ _)

/-- At rest nothing is due. -/
theorem Tracks.due_eq_nil (h : Tracks conducts s) (hrests : s.Rests) {handler : Asked}
    (hmem : handler ∈ s.handlers) : handler.conduct.due handler.progress = [] := by
  rcases (h.of_rests hrests).2 handler hmem with hended | hkeeps
  · rw [hended]
    rfl
  · rw [hkeeps, Conduct.due_keeps]

/-- The responses that have been taken are some of those of all handlers. -/
theorem Tracks.exists_perm (h : Tracks conducts s) {ms : List (RegistryMessage ρ)}
    (hms : ms <+: s.served) :
    ∃ rest, (responses ms ++ rest).Perm (conducts.filterMap Conduct.response?) := by
  obtain ⟨ms', hms'⟩ := hms
  have hall := h.responses_due
  rw [arrived, ← hms', responses_append, responses_append, List.append_assoc, List.append_assoc]
    at hall
  exact ⟨_, hall⟩

theorem Tracks.length_responses_le (h : Tracks conducts s) {ms : List (RegistryMessage ρ)}
    (hms : ms <+: s.served) :
    (responses ms).length ≤ (conducts.filterMap Conduct.response?).length := by
  obtain ⟨rest, hperm⟩ := h.exists_perm hms
  rw [← hperm.length_eq, List.length_append]
  exact Nat.le_add_right _ _

/-- As many responses as there are handlers that answer are the responses of them all. -/
theorem Tracks.perm_of_length (h : Tracks conducts s) {ms : List (RegistryMessage ρ)}
    (hms : ms <+: s.served)
    (hlength : (conducts.filterMap Conduct.response?).length ≤ (responses ms).length) :
    (conducts.filterMap Conduct.response?).Perm (responses ms) := by
  obtain ⟨rest, hperm⟩ := h.exists_perm hms
  have hcount := hperm.length_eq
  rw [List.length_append] at hcount
  obtain rfl : rest = [] := List.eq_nil_of_length_eq_zero (by omega)
  rw [List.append_nil] at hperm
  exact hperm.symm

/-- A handler that keeps its request is one that does not answer. -/
theorem length_lt_of_keeps (h : .keeps ∈ conducts) :
    (conducts.filterMap Conduct.response?).length < conducts.length :=
  List.length_filterMap_lt_length_iff_exists.2 ⟨_, h, rfl⟩

theorem length_eq_of_not_keeps (h : .keeps ∉ conducts) :
    (conducts.filterMap Conduct.response?).length = conducts.length := by
  rw [List.filterMap_length_eq_length]
  intro c hc
  cases c with
  | keeps => exact absurd hc h
  | answers rs | fails | drops | gone => rfl

/-! ## When queries are answered -/

/-- As many handlers are awaited as have been asked and have not responded. -/
theorem Tracks.toNat_awaited (h : Tracks conducts s) (ms : List (RegistryMessage ρ)) :
    (awaited (arrivals conducts.length ms)).toNat = conducts.length - (responses ms).length := by
  rw [awaited_arrivals, UInt64.toNat_ofNat_of_lt' h.counted]

/-- While a handler keeps its request, the registry is not ready at any moment. -/
theorem Tracks.awaited_ne_zero (h : Tracks conducts s) (hkeeps : .keeps ∈ conducts)
    {ms : List (RegistryMessage ρ)} (hms : ms <+: s.served) :
    awaited (arrivals conducts.length ms) ≠ 0 := by
  have hlt := length_lt_of_keeps hkeeps
  have hle := h.length_responses_le hms
  have hcount := h.toNat_awaited ms
  intro hzero
  rw [hzero, UInt64.toNat_zero] at hcount
  omega

/-- While a handler keeps its request, every query that the registry takes is held. -/
theorem Tracks.held (h : Tracks conducts s) (hkeeps : .keeps ∈ conducts) :
    s.answers = [] ∧ s.registry.held = received (s.served.map .deliver) := by
  have hstart : awaited [Operation.expect (ρ := ρ) conducts.length] ≠ 0 :=
    h.awaited_ne_zero hkeeps List.nil_prefix
  have hcount : Countable (arrivals conducts.length s.served) := countable_arrivals _ _
  have hincomplete : Registry.Incomplete [Operation.expect (ρ := ρ) conducts.length]
      (s.served.map .deliver) := by
    intro mid response rest hsplit
    have hprefix : mid ++ [Operation.registered response] <+: s.served.map .deliver :=
      ⟨rest, by rw [hsplit, List.append_assoc]; rfl⟩
    obtain ⟨ms, hms, hmid⟩ := List.prefix_map_iff.1 hprefix
    rw [hmid]
    exact h.awaited_ne_zero hkeeps hms
  obtain ⟨-, hheld, hanswers⟩ := Registry.waits hcount hstart hincomplete
  rw [h.registry, h.answers]
  exact ⟨hanswers, hheld⟩

/-- At rest, when no handler keeps its request, the registry is ready. -/
theorem Tracks.awaited_eq_zero (h : Tracks conducts s) (hkeeps : .keeps ∉ conducts)
    (hrests : s.Rests) : awaited (arrivals conducts.length s.served) = 0 := by
  have hdue : s.handlers.flatMap (fun handler => handler.conduct.due handler.progress) = [] :=
    List.flatMap_eq_nil_iff.2 fun handler hmem => h.due_eq_nil hrests hmem
  have hcount := h.responses_due.length_eq
  rw [hdue, List.append_nil, arrived, (h.of_rests hrests).1, List.append_nil,
    length_eq_of_not_keeps hkeeps] at hcount
  have hzero := h.toNat_awaited s.served
  rw [hcount, Nat.sub_self] at hzero
  exact UInt64.toNat_inj.1 hzero

/-- In a start-up at rest the registry has taken all that has come in. -/
theorem Tracks.arrived_eq (h : Tracks conducts s) (hrests : s.Rests) : s.arrived = s.served := by
  rw [arrived, (h.of_rests hrests).1, List.append_nil]

/-- At rest, when no handler keeps its request, every query has its answer. -/
theorem Tracks.answered (h : Tracks conducts s) (hkeeps : .keeps ∉ conducts) (hrests : s.Rests) :
    s.registry.held = [] ∧ s.answers.map Prod.fst = s.queries.map Prod.snd := by
  have hqueues := Registry.queues_after true (arrivals conducts.length s.served)
  have hcount := countable_arrivals conducts.length s.served
  rw [← h.registry, ← h.answers] at hqueues
  have hready : ready true (arrivals conducts.length s.served) = true := by
    rw [ready, h.awaited_eq_zero hkeeps hrests]
    rfl
  have hheld := hqueues.held_eq_nil hcount hready
  obtain ⟨answered, -, horder, hgiven⟩ := hqueues.order
  have hall := horder hcount
  rw [hheld, List.append_nil, received_arrivals] at hall
  refine ⟨hheld, ?_⟩
  rw [queries, h.arrived_eq hrests, ← hall]
  exact Registry.addresses_of_answers hgiven

/-! ## The order of events -/

/-- What is registered from each handler is for paths of its own. -/
def PathsDisjoint (conducts : List Conduct) : Prop :=
  conducts.Pairwise fun c c' => ∀ r ∈ c.registrations, ∀ r' ∈ c'.registrations, r.path ≠ r'.path

/-- The entries in the end, which are those of handlers that answer in the order of the list. -/
def finalEntries (conducts : List Conduct) : Catalog :=
  (Registry.started (ρ := Unit) true conducts).catalog

theorem PathsDisjoint.responses (h : PathsDisjoint conducts) :
    (conducts.filterMap Conduct.response?).Pairwise fun r r' =>
      ∀ a ∈ r.catalog.entries, ∀ b ∈ r'.catalog.entries, a.path ≠ b.path := by
  rw [List.pairwise_filterMap]
  refine h.imp fun hdisjoint r hr r' hr' a ha b hb => ?_
  exact hdisjoint a (Conduct.mem_registrations hr ha) b (Conduct.mem_registrations hr' hb)

/-- At each moment at which the registry is ready it has the entries of the end. -/
theorem Tracks.entries_eq (h : Tracks conducts s) (hkeeps : .keeps ∉ conducts)
    (hdisjoint : PathsDisjoint conducts) {ms : List (RegistryMessage ρ)} (hms : ms <+: s.served)
    (hready : awaited (arrivals conducts.length ms) = 0) :
    entries (arrivals conducts.length ms) = finalEntries conducts := by
  have hcount := h.toNat_awaited ms
  rw [hready, UInt64.toNat_zero] at hcount
  have hall := h.perm_of_length hms (by rw [length_eq_of_not_keeps hkeeps]; omega)
  rw [entries_arrivals, finalEntries, Registry.catalog_started,
    Catalog.takeAll_of_perm _ hall hdisjoint.responses]

/-- Each answer that has been given is from the entries of the end. -/
theorem Tracks.answers_eq (h : Tracks conducts s) (hkeeps : .keeps ∉ conducts)
    (hdisjoint : PathsDisjoint conducts) :
    ∃ answered, answered ++ s.registry.held = received (s.served.map .deliver) ∧
      s.answers = answered.map (answerFrom (finalEntries conducts)) := by
  have hentries : ∀ mid, mid <+: s.served.map Operation.deliver →
      ready true ([.expect conducts.length] ++ mid) = true →
        entries ([.expect conducts.length] ++ mid) = finalEntries conducts := by
    intro mid hmid hready
    obtain ⟨ms, hms, rfl⟩ := List.prefix_map_iff.1 hmid
    exact h.entries_eq hkeeps hdisjoint hms (by simpa [ready, arrivals] using hready)
  obtain ⟨answered, hall, hgiven⟩ := Registry.answers_of_entries
    (countable_arrivals conducts.length s.served) hentries
  rw [h.registry, h.answers]
  exact ⟨answered, hall, hgiven⟩

/-- What comes of a start-up, in the order of its events so far. -/
structure Concludes (conducts : List Conduct) (s : Startup ρ) : Prop where
  /-- The handlers and the registry come to rest, however they take turns. -/
  ends : Acc (fun s' s : Startup ρ => Works s s') s
  rests : ∃ s', Relation.ReflTransGen Works s s' ∧ s'.Rests
  /-- The responses that have come in are those that the handlers have delivered. -/
  handlers : s.handlers.map Asked.conduct = conducts
  delivered : (responses s.arrived).Perm (s.handlers.flatMap Asked.sent)
  /-- No handler delivers more than the response of its conduct, and at rest it has delivered that:
  none if it keeps its request, and one otherwise. -/
  once : ∀ h ∈ s.handlers, h.sent <+: h.conduct.response?.toList ∧
    (s.Rests → h.sent = h.conduct.response?.toList ∧
      h.sent.length = if h.conduct = .keeps then 0 else 1)
  /-- If a handler keeps its request, no query is ever answered, and all are held at rest. -/
  held : .keeps ∈ conducts → s.answers = [] ∧ (s.Rests → s.registry.held = s.queries)
  /-- If none does, every query has been answered at rest, in the order of arrival. -/
  answered : .keeps ∉ conducts → s.Rests →
    s.registry.held = [] ∧ s.answers.map Prod.fst = s.queries.map Prod.snd
  /-- If moreover the handlers register paths of their own, then every answer that is given, at
  whatever moment, is that from the entries of the end, and these do not depend on the order of
  events. -/
  same : .keeps ∉ conducts → PathsDisjoint conducts →
    s.answers <+: s.queries.map (answerFrom (finalEntries conducts)) ∧
      (s.Rests → s.registry.catalog = finalEntries conducts ∧
        s.answers = s.queries.map (answerFrom (finalEntries conducts)))

theorem startup_concludes {roster : Roster} (h : Reachable roster s) :
    Concludes roster.conducts s := by
  have htracks := tracks_of_reachable h
  refine ⟨wellFounded_works.apply s, exists_rests s, htracks.handlers, htracks.delivered, ?_, ?_,
    htracks.answered, ?_⟩
  · intro handler hmem
    have hdue := (htracks.sound handler hmem).due
    refine ⟨⟨_, hdue⟩, fun hrests => ?_⟩
    rw [htracks.due_eq_nil hrests hmem, List.append_nil] at hdue
    exact ⟨hdue, by rw [hdue, Conduct.length_response?]⟩
  · intro hkeeps
    obtain ⟨hanswers, hheld⟩ := htracks.held hkeeps
    refine ⟨hanswers, fun hrests => ?_⟩
    rw [hheld, queries, htracks.arrived_eq hrests]
  · intro hkeeps hdisjoint
    obtain ⟨answered, hall, hgiven⟩ := htracks.answers_eq hkeeps hdisjoint
    constructor
    · rw [hgiven, queries, Startup.arrived, List.map_append, received_append, ← hall]
      exact ((List.prefix_append _ _).trans (List.prefix_append _ _)).map _
    · intro hrests
      obtain ⟨hheld, -⟩ := htracks.answered hkeeps hrests
      rw [hheld, List.append_nil] at hall
      constructor
      · rw [htracks.registry, (Registry.follows_after true _).catalog]
        exact htracks.entries_eq hkeeps hdisjoint List.prefix_rfl
          (htracks.awaited_eq_zero hkeeps hrests)
      · rw [hgiven, hall, queries, htracks.arrived_eq hrests]

/-- A listing that comes in before the handler of `exit` has answered, while another handler has
stopped, waits and is answered with the commands of the former. -/
theorem startup_concludes_exit :
    ∃ s : Startup Unit, Reachable ⟨[Handler.exit.conduct 0, .gone], by decide⟩ s ∧ s.Rests ∧
      s.answers.map (fun a => a.2.catalog.entries.map Registration.path) =
        [[Handler.exitPath, Handler.quitPath]] ∧
      Concludes [Handler.exit.conduct 0, .gone] s := by
  have hlisted : Reachable ⟨[Handler.exit.conduct 0, .gone], by decide⟩ _ :=
    Relation.ReflTransGen.refl.tail (.receives .list ())
  have hasked := hlisted.tail (.works (.proceeds (show _ = [] ++ _ :: _ from rfl) .asked nofun))
  have hrefused := hasked.tail
    (.works (.proceeds (show _ = [_] ++ _ :: _ from rfl) .refused (by simp [Asked.proceed])))
  have htaken := hrefused.tail
    (.works (.proceeds (show _ = [] ++ _ :: _ from rfl) (.took nofun) nofun))
  have hanswered := htaken.tail
    (.works (.proceeds (show _ = [] ++ _ :: _ from rfl) .answered nofun))
  have hserved := ((hanswered.tail (.works (.serves (by simp [Asked.proceed]) rfl))).tail
    (.works (.serves (by simp [Asked.proceed]) rfl))).tail
      (.works (.serves (by simp [Asked.proceed]) rfl))
  exact ⟨_, hserved, rests_of_ended rfl (by simp [Asked.proceed]), rfl, startup_concludes hserved⟩

end Startup

end ClusterConsole
