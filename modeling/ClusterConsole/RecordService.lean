/-
The record store as the console reaches it: through envelopes, and perhaps not at all. A scripted
service answers with given envelopes one after another, and with a failure when they are used up.
-/
import ClusterConsole.Store

namespace ClusterConsole

/-- The service that keeps the records. -/
inductive RecordService
  | memory (s : Store)
  /-- It has stopped. -/
  | closed
  | scripted (replies : List Envelope)

namespace RecordService

/-- Whether requests reach the service. -/
def runs : RecordService → Bool
  | .closed => false
  | _ => true

/-- The reply of a script that has run out. -/
def scriptOver : Envelope := (Reply.failure "script over").seal

/-- Sends a request; a service that runs answers it. -/
def call (s : RecordService) (e : Envelope) : RecordService × Option Envelope :=
  match s with
  | .memory store =>
    let (store, reply) := store.call e
    (.memory store, some reply)
  | .closed => (.closed, none)
  | .scripted [] => (.scripted [], some scriptOver)
  | .scripted (reply :: replies) => (.scripted replies, some reply)

end RecordService

end ClusterConsole
