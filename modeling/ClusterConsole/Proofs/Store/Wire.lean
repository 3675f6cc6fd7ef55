/-
Talking to a store through envelopes is talking to it directly (`same_over_wire`). An envelope
with a request does what the request does, and the reply to it is sealed; any other envelope is
answered with a failure and changes nothing (`ask_of_some`, `ask_of_none`). So only the
requests count among whatever a store is asked, and how they reach it does not (`askAll_eq`).
-/
import ClusterConsole.Proofs.Record.Codec
import ClusterConsole.Proofs.Store.History

namespace ClusterConsole

/-- A request that travels unchanged: its data has only integers of 64 bits and is in canonical
form, and lists and objects stand no deeper in its payload than can be read. -/
structure Request.Sendable (r : Request) : Prop where
  integral : (Message.request r).Integral
  canonical : (Message.request r).Canonical
  shallow : r.toJson.depth < Json.depthLimit

/-- The request in an envelope, if it carries one. -/
def Envelope.request? (e : Envelope) : Option Request :=
  match e.decode with
  | .ok (.request r) => some r
  | _ => none

theorem Envelope.request?_eq_some_iff {e : Envelope} {r : Request} :
    e.request? = some r ↔ e.decode = .ok (.request r) := by
  unfold request?
  cases e.decode with
  | error err => simp
  | ok m => cases m <;> simp

theorem Request.request?_seal (r : Request) : r.seal.request? = r.reread :=
  Option.ext fun _ => Envelope.request?_eq_some_iff.trans Request.decode_seal_eq_ok

theorem Request.Sendable.request?_seal {r : Request} (h : r.Sendable) :
    r.seal.request? = some r := by
  rw [Request.request?_seal]
  exact Message.reread_request h.integral h.canonical (Message.fits_of_depth h.shallow)

/-- What a store can be asked: a request itself, or an envelope with whatever in it. -/
inductive Asking
  | direct (r : Request)
  | wire (e : Envelope)

/-- The request that the store is asked to run, if it is one. -/
def Asking.request? : Asking → Option Request
  | .direct r => some r
  | .wire e => e.request?

namespace Store

variable {s : Store} {a : Asking} {r : Request} {e : Envelope}

/-- Has the store answer; the reply to a request that has come by itself is sealed as well. -/
def ask (s : Store) : Asking → Store × Envelope
  | .direct r => ((s.apply r).1, (s.apply r).2.seal)
  | .wire e => s.call e

/-- Has the store answer one after another. -/
def askAll (s : Store) : List Asking → Store × List Envelope
  | [] => (s, [])
  | a :: as =>
    let (s, reply) := s.ask a
    let (s, replies) := s.askAll as
    (s, reply :: replies)

/-- The replies to requests among the replies to all that a store is asked. -/
def repliesToRequests (as : List Asking) (replies : List Envelope) : List Envelope :=
  (as.zip replies).filterMap fun a => a.1.request?.map fun _ => a.2

/-! ## One question -/

theorem call_of_some (s : Store) (h : e.request? = some r) :
    s.call e = ((s.apply r).1, (s.apply r).2.seal) := by
  rw [call, Envelope.request?_eq_some_iff.1 h]

/-- An envelope without a request is answered with a failure, and nothing changes. -/
theorem call_of_none (s : Store) (h : e.request? = none) :
    ∃ message, s.call e = (s, (Reply.failure message).seal) := by
  unfold call
  cases hdecode : e.decode with
  | error err => exact ⟨_, rfl⟩
  | ok m =>
    cases m with
    | request r =>
      rw [Envelope.request?_eq_some_iff.2 hdecode] at h
      cases h
    | reply reply => exact ⟨_, rfl⟩

theorem ask_of_some (s : Store) (h : a.request? = some r) :
    s.ask a = ((s.apply r).1, (s.apply r).2.seal) := by
  cases a with
  | direct r' =>
    cases h
    rfl
  | wire e => exact call_of_some s h

theorem ask_of_none (s : Store) (h : a.request? = none) :
    ∃ message, s.ask a = (s, (Reply.failure message).seal) := by
  cases a with
  | direct r => cases h
  | wire e => exact call_of_none s h

/-- A failure that the store reports can be read. -/
theorem openReply_failure (message : Text) :
    (Reply.failure message).seal.openReply = .ok (.failure message) :=
  Reply.openReply_seal_eq_ok.2 rfl

/-! ## Runs -/

theorem askAll_cons (s : Store) (a : Asking) (as : List Asking) :
    s.askAll (a :: as) = (((s.ask a).1.askAll as).1, (s.ask a).2 :: ((s.ask a).1.askAll as).2) :=
  rfl

/-- A store becomes what the requests make of it among all that it is asked, and these are answered
as if there was nothing else and all of them had come by themselves. -/
theorem askAll_eq (s : Store) (as : List Asking) :
    (s.askAll as).1 = (s.applyAll (as.filterMap Asking.request?)).1 ∧
      repliesToRequests as (s.askAll as).2 =
        (s.applyAll (as.filterMap Asking.request?)).2.map Reply.seal := by
  induction as generalizing s with
  | nil => exact ⟨rfl, rfl⟩
  | cons a as ih =>
    rw [askAll_cons, repliesToRequests, List.zip_cons_cons]
    cases ha : a.request? with
    | none =>
      obtain ⟨message, hask⟩ := ask_of_none s ha
      rw [List.filterMap_cons_none ha, List.filterMap_cons_none (by rw [ha]; rfl), hask]
      exact ih s
    | some r =>
      rw [List.filterMap_cons_some ha, List.filterMap_cons_some (by rw [ha]; rfl),
        ask_of_some s ha, applyAll_cons, List.map_cons]
      obtain ⟨hstate, hreplies⟩ := ih (s.apply r).1
      exact ⟨hstate, congrArg _ hreplies⟩

/-- Requests that travel unchanged may as well be sent. -/
theorem askAll_seal (s : Store) {requests : List Request} (h : ∀ r ∈ requests, r.Sendable) :
    s.askAll (requests.map fun r => .wire r.seal) =
      ((s.applyAll requests).1, (s.applyAll requests).2.map Reply.seal) := by
  induction requests generalizing s with
  | nil => rfl
  | cons r requests ih =>
    obtain ⟨hr, hrequests⟩ := List.forall_mem_cons.1 h
    have hask : s.ask (.wire r.seal) = ((s.apply r).1, (s.apply r).2.seal) :=
      call_of_some s hr.request?_seal
    rw [List.map_cons, askAll_cons, hask, ih _ hrequests, applyAll_cons, List.map_cons]

/-- The two ways to talk to a store do not differ. -/
structure SameOverWire (s : Store) : Prop where
  /-- An envelope with a request leaves the store as the request does, and is answered with the
  reply to the request in an envelope. -/
  request : ∀ e r, e.decode = .ok (.request r) → s.call e = ((s.apply r).1, (s.apply r).2.seal)
  /-- Any other envelope, be its tag unknown, its payload unreadable or a reply in it, is answered
  with a failure that can be read, and leaves the store as it is. -/
  other : ∀ e, (∀ r, e.decode ≠ .ok (.request r)) → ∃ message,
    s.call e = (s, (Reply.failure message).seal) ∧
      (Reply.failure message).seal.openReply = .ok (.failure message)
  /-- In particular a request that travels unchanged has the same effect and the same reply. -/
  sent : ∀ r : Request, r.Sendable → s.call r.seal = ((s.apply r).1, (s.apply r).2.seal)
  /-- So has a run of such requests. -/
  sentAll : ∀ requests : List Request, (∀ r ∈ requests, r.Sendable) →
    s.askAll (requests.map fun r => .wire r.seal) =
      ((s.applyAll requests).1, (s.applyAll requests).2.map Reply.seal)
  /-- Two runs with the same requests in them, by whichever way each of these comes and whatever
  else is sent, lead to the same store and to the same replies to the requests. -/
  mixed : ∀ as as' : List Asking, as.filterMap Asking.request? = as'.filterMap Asking.request? →
    (s.askAll as).1 = (s.askAll as').1 ∧
      repliesToRequests as (s.askAll as).2 = repliesToRequests as' (s.askAll as').2

/-- Talking to a store through envelopes is talking to it directly, whatever the store holds and
whatever bytes are sent. -/
theorem same_over_wire (s : Store) : SameOverWire s where
  request e r h := call_of_some s (Envelope.request?_eq_some_iff.2 h)
  other e h := by
    have hnone : e.request? = none :=
      Option.eq_none_iff_forall_ne_some.2 fun r hr => h r (Envelope.request?_eq_some_iff.1 hr)
    obtain ⟨message, hcall⟩ := call_of_none s hnone
    exact ⟨message, hcall, openReply_failure message⟩
  sent r h := call_of_some s h.request?_seal
  sentAll _ := askAll_seal s
  mixed as as' h := by
    obtain ⟨hstate, hreplies⟩ := s.askAll_eq as
    obtain ⟨hstate', hreplies'⟩ := s.askAll_eq as'
    rw [hstate, hreplies, hstate', hreplies', h]
    exact ⟨rfl, rfl⟩

/-- Two companies are added: once both directly, and once the second of them by an envelope, with an
unknown tag and a reply sent before it. -/
theorem same_over_wire_companies :
    let r : Request := .add .company true (.object [("name", .text "é")])
    r.Sendable ∧ empty.call r.seal = ((empty.apply r).1, (empty.apply r).2.seal) ∧
      (empty.askAll [.direct r, .wire ⟨"unknown", []⟩, .wire (Reply.failure "lost").seal,
        .wire r.seal]).1 = (empty.askAll [.direct r, .direct r]).1 := by
  intro r
  have hr : r.Sendable := by
    constructor
    · exact List.forall_mem_singleton.2 rfl
    · exact List.forall_mem_singleton.2 rfl
    · decide
  have hunknown : (Asking.wire ⟨"unknown", []⟩).request? = none := rfl
  have hreply : (Asking.wire (Reply.failure "lost").seal).request? = none := by decide +kernel
  have hrequest : (Asking.wire r.seal).request? = some r := hr.request?_seal
  refine ⟨hr, (same_over_wire empty).sent r hr, ((same_over_wire empty).mixed _ _ ?_).1⟩
  show [Asking.direct r, .wire ⟨"unknown", []⟩, .wire (Reply.failure "lost").seal,
    .wire r.seal].filterMap Asking.request? = [r, r]
  rw [List.filterMap_cons_some (show (Asking.direct r).request? = some r from rfl),
    List.filterMap_cons_none hunknown, List.filterMap_cons_none hreply,
    List.filterMap_cons_some hrequest]
  rfl

end Store

end ClusterConsole
