/-
Messages about records as they travel: an envelope carries a tag that names the kind of message,
and the message as JSON. `decode` goes by the tag; `openRequest` and `openReply` insist on one.
-/
import ClusterConsole.Json.Stream
import ClusterConsole.Record

namespace ClusterConsole

/-! ## Writing -/

namespace Record

/-- The record as JSON. -/
def toJson (r : Record) : Json :=
  .object [("id", .ofUInt64 r.id), ("data_type", .text r.dataType.name), ("active", .bool r.active),
    ("data", r.data)]

end Record

/-- An array of ids. -/
def Json.ofIds (ids : List UInt64) : Json := .array (ids.map Json.ofUInt64)

/-- A truth value, or `null` for none. -/
def Json.ofStatus : Option Bool → Json
  | some b => .bool b
  | none => .null

/-- The request as JSON, its name first. -/
def Request.toJson : Request → Json
  | .getAll t => .object [("op", .text "get_all"), ("data_type", .text t.name)]
  | .getByIds t ids active =>
    .object [("op", .text "get_by_ids"), ("data_type", .text t.name), ("ids", .ofIds ids),
      ("active", .ofStatus active)]
  | .add t active data =>
    .object [("op", .text "add"), ("data_type", .text t.name), ("active", .bool active),
      ("data", data)]
  | .delete t ids =>
    .object [("op", .text "delete"), ("data_type", .text t.name), ("ids", .ofIds ids)]

/-- The reply as JSON, its name first. -/
def Reply.toJson : Reply → Json
  | .records rs => .object [("status", .text "records"), ("records", .array (rs.map Record.toJson))]
  | .failure message => .object [("status", .text "failure"), ("message", .text message)]

/-! ## Reading -/

open Json

/-- A data type by its name. -/
def DataType.form : Form DataType := asName (DataType.all.map fun d => (d.name, d))

/-- Any value, in canonical form. -/
def Json.asData : Form Json := fun v => .ok v.canonical

/-- A record. -/
def Record.form : Form Record :=
  Json.record "struct Record" noMoreThan
    [("id", checked asUInt64), ("data_type", checked DataType.form), ("active", checked asBool),
      ("data", checked asData)]
    (fun fields => do
      let id ← needed "id" asUInt64 fields
      let dataType ← needed "data_type" DataType.form fields
      let active ← needed "active" asBool fields
      let data ← needed "data" asData fields
      return ⟨id, dataType, active, data⟩)
    (fun expected items => do
      let id ← item asUInt64 0 expected items
      let dataType ← item DataType.form 1 expected items
      let active ← item asBool 2 expected items
      let data ← item asData 3 expected items
      return ⟨id, dataType, active, data⟩)

namespace Request

/-- The names of the kinds of request. -/
def names : List Text := ["get_all", "get_by_ids", "add", "delete"]

/-- A request for all records of a type, without its name. -/
def getAllForm : Form Request :=
  Json.record "struct variant PersistenceRequest::GetAll" noMoreThan
    [("data_type", checked DataType.form)]
    (fun fields => do return .getAll (← needed "data_type" DataType.form fields))
    (fun expected items => do return .getAll (← item DataType.form 0 expected items))

/-- A request for records by id, without its name. -/
def getByIdsForm : Form Request :=
  Json.record "struct variant PersistenceRequest::GetByIds" noMoreThan
    [("data_type", checked DataType.form), ("ids", checked (asList asUInt64)),
      ("active", checked (asOption asBool))]
    (fun fields => do
      let dataType ← needed "data_type" DataType.form fields
      let ids ← needed "ids" (asList asUInt64) fields
      return .getByIds dataType ids (← optional "active" (asOption asBool) none fields))
    (fun expected items => do
      let dataType ← item DataType.form 0 expected items
      let ids ← item (asList asUInt64) 1 expected items
      return .getByIds dataType ids (← item (asOption asBool) 2 expected items))

/-- A request to add a record, without its name. -/
def addForm : Form Request :=
  Json.record "struct variant PersistenceRequest::Add" noMoreThan
    [("data_type", checked DataType.form), ("active", checked asBool), ("data", checked asData)]
    (fun fields => do
      let dataType ← needed "data_type" DataType.form fields
      let active ← needed "active" asBool fields
      return .add dataType active (← needed "data" asData fields))
    (fun expected items => do
      let dataType ← item DataType.form 0 expected items
      let active ← item asBool 1 expected items
      return .add dataType active (← item asData 2 expected items))

/-- A request to delete records, without its name. -/
def deleteForm : Form Request :=
  Json.record "struct variant PersistenceRequest::Delete" noMoreThan
    [("data_type", checked DataType.form), ("ids", checked (asList asUInt64))]
    (fun fields => do
      let dataType ← needed "data_type" DataType.form fields
      return .delete dataType (← needed "ids" (asList asUInt64) fields))
    (fun expected items => do
      let dataType ← item DataType.form 0 expected items
      return .delete dataType (← item (asList asUInt64) 1 expected items))

/-- A request with the given name. -/
def form (name : Text) : Form Request :=
  if name = "get_all" then getAllForm
  else if name = "get_by_ids" then getByIdsForm
  else if name = "add" then addForm
  else deleteForm

end Request

namespace Reply

/-- The names of the kinds of reply. -/
def names : List Text := ["records", "failure"]

/-- A reply that carries records, without its name. -/
def recordsForm : Form Reply :=
  Json.record "struct variant PersistenceReply::Records" noMoreThan
    [("records", checked (asList Record.form))]
    (fun fields => do return .records (← needed "records" (asList Record.form) fields))
    (fun expected items => do return .records (← item (asList Record.form) 0 expected items))

/-- A reply that reports a failure, without its name. -/
def failureForm : Form Reply :=
  Json.record "struct variant PersistenceReply::Failure" noMoreThan
    [("message", checked asText)]
    (fun fields => do return .failure (← needed "message" asText fields))
    (fun expected items => do return .failure (← item asText 0 expected items))

/-- A reply with the given name. -/
def form (name : Text) : Form Reply := if name = "records" then recordsForm else failureForm

end Reply

/-- Reads a message whose name says of which form the rest is. -/
def Json.readMessage {α : Type} (what tag : Text) (names : List Text) (form : Text → Form α) :
    Read α := fun bs => do
  let ((name, content), rest) ← readTagged what tag names bs
  match form name content with
  | .ok a => return (a, rest)
  | .error m => .error (.unplaced m)

/-- The request that a document stands for. -/
def Request.decode (document : Bytes) : Except Json.Error Request :=
  readDocument (readMessage "internally tagged enum PersistenceRequest" "op" Request.names
    Request.form) document

/-- The reply that a document stands for. -/
def Reply.decode (document : Bytes) : Except Json.Error Reply :=
  readDocument (readMessage "internally tagged enum PersistenceReply" "status" Reply.names
    Reply.form) document

/-! ## Envelopes -/

/-- A message as it travels: the tag of its kind and its bytes. -/
structure Envelope where
  manifest : Text
  payload : Bytes
deriving DecidableEq

/-- A message of either kind. -/
inductive Message
  | request (r : Request)
  | reply (r : Reply)

/-- The tag of requests. -/
def Request.manifest : Text := "keel.persistence.request"

/-- The tag of replies. -/
def Reply.manifest : Text := "keel.persistence.reply"

/-- The envelope that carries a request. -/
def Request.seal (r : Request) : Envelope := ⟨Request.manifest, r.toJson.encode⟩

/-- The envelope that carries a reply. -/
def Reply.seal (r : Reply) : Envelope := ⟨Reply.manifest, r.toJson.encode⟩

/-- The envelope that carries a message. -/
def Message.seal : Message → Envelope
  | .request r => r.seal
  | .reply r => r.seal

namespace Envelope

/-- The request in an envelope that must carry one. -/
def openRequest (e : Envelope) : Except ConsoleError Request :=
  if e.manifest = Request.manifest then (Request.decode e.payload).mapError .json
  else .error (.codec (.wrongManifest Request.manifest e.manifest))

/-- The reply in an envelope that must carry one. -/
def openReply (e : Envelope) : Except ConsoleError Reply :=
  if e.manifest = Reply.manifest then (Reply.decode e.payload).mapError .json
  else .error (.codec (.wrongManifest Reply.manifest e.manifest))

/-- The kinds of message that an envelope can carry: their tags and how they are read. -/
def decoders : List (Text × (Bytes → Except Json.Error Message)) :=
  [(Request.manifest, fun bs => (Request.decode bs).map .request),
    (Reply.manifest, fun bs => (Reply.decode bs).map .reply)]

/-- The tags that are known. -/
def knownManifests : List Text := decoders.map Prod.fst

/-- The message in an envelope, whichever it is. -/
def decode (e : Envelope) : Except ConsoleError Message :=
  match decoders.lookup e.manifest with
  | some decoder => (decoder e.payload).mapError .json
  | none => .error (.unknownManifest e.manifest)

end Envelope

end ClusterConsole
