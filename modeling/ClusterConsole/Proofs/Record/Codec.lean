/-
Messages lose nothing on the wire (`codec_lossless`), unless a number is no integer or lists and
objects stand too deep in the data. What is read from a payload, whatever its bytes are, is never
too deep to be sent once more: a message takes its data from places where the reader has left room
for it (`Message.kept_of_decode`), and that is where the writer puts it.
-/
import ClusterConsole.Proofs.Json.Nesting
import ClusterConsole.Proofs.Record.Wire

namespace ClusterConsole

open Json

/-! ## Messages -/

namespace Message

def toJson : Message → Json
  | .request r => r.toJson
  | .reply r => r.toJson

/-- The data of records that a message carries. -/
def data : Message → List Json
  | .request (.add _ _ data) => [data]
  | .request _ => []
  | .reply (.records rs) => rs.map Record.data
  | .reply (.failure _) => []

/-- All numbers in the data are integers of 64 bits. -/
def Integral (m : Message) : Prop := ∀ v ∈ m.data, v.integral = true

/-- All data is in canonical form, as data always is that a record has been made with: an object
has one field for each key, in the order of the keys. -/
def Canonical (m : Message) : Prop := ∀ v ∈ m.data, v.canonical = v

/-- The depth below which data can stand in a message. -/
def room : Message → Nat
  | .request _ => depthLimit - 1
  | .reply _ => depthLimit - 3

/-- All data stands where there is room for it. -/
def Fits (m : Message) : Prop := ∀ v ∈ m.data, v.depth < m.room

end Message

/-! ## Writing and reading back -/

theorem Record.mapM_reread_eq_some {rs : List Record} (h : ∀ r ∈ rs, r.reread = some r) :
    rs.mapM Record.reread = some rs := by
  induction rs with
  | nil => rfl
  | cons r rs ih =>
    obtain ⟨hr, hrs⟩ := List.forall_mem_cons.1 h
    rw [List.mapM_cons, hr, ih hrs]
    rfl

theorem rereadAt_of_integral {d : Nat} {v : Json} (hintegral : v.integral = true)
    (hdepth : v.depth < d) : rereadAt d v = some v := by
  rw [rereadAt, if_pos hdepth, reread_of_integral v hintegral]

/-- A record of integers, in canonical form and not nested too deeply, is read back as it is. -/
theorem Record.reread_of_integral {r : Record} (hintegral : r.data.integral = true)
    (hcanonical : r.data.canonical = r.data) (hdepth : r.data.depth < depthLimit - 3) :
    r.reread = some r := by
  rw [Record.reread, rereadAt_of_integral hintegral hdepth, Option.map_some, hcanonical]

namespace Message

variable {m : Message}

theorem reread_request {r : Request} (hintegral : (Message.request r).Integral)
    (hcanonical : (Message.request r).Canonical) (hfits : (Message.request r).Fits) :
    r.reread = some r := by
  cases r with
  | getAll t => rfl
  | getByIds t ids active => rfl
  | delete t ids => rfl
  | add t active data =>
    have hdata : data ∈ (Message.request (.add t active data)).data := List.mem_singleton_self _
    have hdepth : data.depth < depthLimit - 1 := hfits data hdata
    rw [Request.reread, rereadAt_of_integral (hintegral data hdata) hdepth, Option.map_some,
      hcanonical data hdata]

theorem reread_reply {r : Reply} (hintegral : (Message.reply r).Integral)
    (hcanonical : (Message.reply r).Canonical) (hfits : (Message.reply r).Fits) :
    r.reread = some r := by
  cases r with
  | failure message => rfl
  | records rs =>
    have hrecords : ∀ r ∈ rs, r.reread = some r := by
      intro r hr
      have hdata : r.data ∈ (Message.reply (.records rs)).data := List.mem_map_of_mem hr
      exact Record.reread_of_integral (hintegral _ hdata) (hcanonical _ hdata) (hfits _ hdata)
    rw [Reply.reread, Record.mapM_reread_eq_some hrecords]
    rfl

/-- How an envelope is opened that carries a message: as one of its kind, and as no other. -/
def Opens (m : Message) (e : Envelope) : Prop :=
  match m with
  | .request r => e.openRequest = .ok r ∧
      e.openReply = .error (.codec (.wrongManifest Reply.manifest e.manifest))
  | .reply r => e.openReply = .ok r ∧
      e.openRequest = .error (.codec (.wrongManifest Request.manifest e.manifest))

end Message

theorem Request.manifest_ne : Request.manifest ≠ Reply.manifest := by decide

namespace Envelope

/-- However an envelope has come about, decoding it is opening it as what its tag names. -/
structure Consistent (e : Envelope) : Prop where
  request : e.manifest = Request.manifest → e.decode = e.openRequest.map .request
  reply : e.manifest = Reply.manifest → e.decode = e.openReply.map .reply
  unknown : e.manifest ≠ Request.manifest → e.manifest ≠ Reply.manifest →
    e.decode = .error (.unknownManifest e.manifest) ∧
      e.openRequest = .error (.codec (.wrongManifest Request.manifest e.manifest)) ∧
      e.openReply = .error (.codec (.wrongManifest Reply.manifest e.manifest))

theorem consistent (e : Envelope) : e.Consistent := by
  obtain ⟨manifest, payload⟩ := e
  refine ⟨?_, ?_, fun hrequest hreply => ?_⟩
  · rintro rfl
    show ((Request.decode payload).map Message.request).mapError ConsoleError.json = _
    rw [openRequest, if_pos rfl]
    cases Request.decode payload <;> rfl
  · rintro rfl
    show ((Reply.decode payload).map Message.reply).mapError ConsoleError.json = _
    rw [openReply, if_pos rfl]
    cases Reply.decode payload <;> rfl
  · refine ⟨?_, if_neg hrequest, if_neg hreply⟩
    have hnone : decoders.lookup manifest = none := by
      simp [decoders, List.lookup_eq_none_iff, hrequest, hreply]
    simp only [decode, hnone]

/-- A message that is decoded has been opened as one of its kind. -/
theorem exists_open_of_decode {e : Envelope} {m : Message} (h : e.decode = .ok m) :
    (∃ r, m = .request r ∧ Request.decode e.payload = .ok r) ∨
      ∃ r, m = .reply r ∧ Reply.decode e.payload = .ok r := by
  by_cases hrequest : e.manifest = Request.manifest
  · rw [e.consistent.request hrequest, openRequest, if_pos hrequest] at h
    obtain ⟨r, hr, rfl⟩ := map_eq_ok.1 h
    exact Or.inl ⟨r, rfl, mapError_eq_ok.1 hr⟩
  · by_cases hreply : e.manifest = Reply.manifest
    · rw [e.consistent.reply hreply, openReply, if_pos hreply] at h
      obtain ⟨r, hr, rfl⟩ := map_eq_ok.1 h
      exact Or.inr ⟨r, rfl, mapError_eq_ok.1 hr⟩
    · rw [(e.consistent.unknown hrequest hreply).1] at h
      cases h

end Envelope

namespace Message

variable {m : Message}

theorem opens_seal (hintegral : m.Integral) (hcanonical : m.Canonical) (hfits : m.Fits) :
    m.seal.decode = .ok m ∧ m.Opens m.seal := by
  cases m with
  | request r =>
    have hdecode : r.seal.decode = .ok (.request r) :=
      Request.decode_seal_eq_ok.2 (reread_request hintegral hcanonical hfits)
    have hopen := hdecode
    rw [r.seal.consistent.request rfl] at hopen
    obtain ⟨r', hr', heq⟩ := map_eq_ok.1 hopen
    cases heq
    exact ⟨hdecode, hr', if_neg Request.manifest_ne⟩
  | reply r =>
    have hopen : r.seal.openReply = .ok r :=
      Reply.openReply_seal_eq_ok.2 (reread_reply hintegral hcanonical hfits)
    have hdecode : r.seal.decode = .ok (.reply r) := by
      rw [r.seal.consistent.reply rfl, hopen]
      rfl
    exact ⟨hdecode, hopen, if_neg Request.manifest_ne.symm⟩

/-- The JSON of a request has its data one place down, that of a reply three. -/
theorem fits_of_depth (h : m.toJson.depth < depthLimit) : m.Fits := by
  intro v hv
  cases m with
  | request r =>
    cases r with
    | getAll t => cases hv
    | getByIds t ids active => cases hv
    | delete t ids => cases hv
    | add t active data =>
      obtain rfl := List.mem_singleton.1 hv
      have hchild : v.depth < (Request.add t active v).toJson.depth :=
        depth_lt_of_mem_children (by simp [Request.toJson, children])
      simp only [toJson] at h
      simp only [room]
      omega
  | reply r =>
    cases r with
    | failure message => cases hv
    | records rs =>
      obtain ⟨r, hr, rfl⟩ := List.mem_map.1 hv
      have hdata : r.data.depth < r.toJson.depth :=
        depth_lt_of_mem_children (by simp [Record.toJson, children])
      have hrecord : r.toJson.depth < (Json.array (rs.map Record.toJson)).depth :=
        depth_lt_of_mem_children (List.mem_map_of_mem hr)
      have hrecords : (Json.array (rs.map Record.toJson)).depth < (Reply.records rs).toJson.depth :=
        depth_lt_of_mem_children (by simp [Reply.toJson, children])
      simp only [toJson] at h
      simp only [room]
      omega

end Message

/-! ## What forms take from a value -/

namespace Json

variable {α : Type} {v : Json} {a : α} {form : Form α}

theorem record_eq_ok {what : Text} {surplus : Surplus} {known : List (Text × Form Unit)}
    {ofFields : List (Text × Json) → Except Mismatch α}
    {ofItems : Text → List Json → Except Mismatch α}
    (h : Json.record what surplus known ofFields ofItems v = .ok a) :
    (∃ fields, v = .object fields ∧ ofFields fields = .ok a) ∨
      ∃ expected items, v = .array items ∧ ofItems expected items = .ok a := by
  cases v with
  | object fields =>
    obtain ⟨_, -, h⟩ := bind_eq_ok.1 h
    exact Or.inl ⟨fields, rfl, h⟩
  | array items =>
    obtain ⟨a', ha', h⟩ := bind_eq_ok.1 h
    obtain ⟨_, -, h⟩ := bind_eq_ok.1 h
    cases h
    exact Or.inr ⟨_, items, rfl, ha'⟩
  | null | bool _ | number _ | text _ => cases h

theorem exists_of_needed {name : Text} {fields : List (Text × Json)}
    (h : needed name form fields = .ok a) :
    ∃ w ∈ (Json.object fields).children, form w = .ok a := by
  rw [needed] at h
  split at h
  · rename_i w hw
    obtain ⟨before, after, rfl, -⟩ := List.lookup_eq_some_iff.1 hw
    exact ⟨w, by simp [children], h⟩
  · cases h

theorem exists_of_item {i : Nat} {expected : Text} {items : List Json}
    (h : item form i expected items = .ok a) :
    ∃ w ∈ (Json.array items).children, form w = .ok a := by
  rw [item] at h
  split at h
  · rename_i w hw
    exact ⟨w, List.mem_of_getElem? hw, h⟩
  · cases h

/-- Data that is taken from a value that is not too deep is canonical and not too deep itself. -/
theorem kept_of_asData {v w : Json} {d : Nat} (h : asData v = .ok w) (hv : v.depth < d) :
    w.canonical = w ∧ w.depth < d := by
  cases h
  exact ⟨canonical_canonical v, (depth_canonical_le v).trans_lt hv⟩

end Json

/-- The data of a record is taken from a part of the value that it is made of. -/
theorem Record.exists_of_form {v : Json} {r : Record} (h : Record.form v = .ok r) :
    ∃ w ∈ v.children, asData w = .ok r.data := by
  rcases record_eq_ok h with ⟨fields, rfl, hparts⟩ | ⟨expected, items, rfl, hparts⟩
  all_goals
    obtain ⟨_, -, hparts⟩ := bind_eq_ok.1 hparts
    obtain ⟨_, -, hparts⟩ := bind_eq_ok.1 hparts
    obtain ⟨_, -, hparts⟩ := bind_eq_ok.1 hparts
    obtain ⟨data, hdata, hparts⟩ := bind_eq_ok.1 hparts
    cases hparts
  · exact exists_of_needed hdata
  · exact exists_of_item hdata

namespace Message

/-- The data of a request is taken from a part of the content of the message. -/
theorem exists_of_requestForm {name : Text} {content : Json} {r : Request}
    (h : Request.form name content = .ok r) :
    ∀ v ∈ (Message.request r).data, ∃ w ∈ content.children, asData w = .ok v := by
  rw [Request.form] at h
  split_ifs at h
  · rcases record_eq_ok h with ⟨fields, rfl, hparts⟩ | ⟨expected, items, rfl, hparts⟩
    all_goals
      obtain ⟨_, -, hparts⟩ := bind_eq_ok.1 hparts
      cases hparts
      simp [data]
  · rcases record_eq_ok h with ⟨fields, rfl, hparts⟩ | ⟨expected, items, rfl, hparts⟩
    all_goals
      obtain ⟨_, -, hparts⟩ := bind_eq_ok.1 hparts
      obtain ⟨_, -, hparts⟩ := bind_eq_ok.1 hparts
      obtain ⟨_, -, hparts⟩ := bind_eq_ok.1 hparts
      cases hparts
      simp [data]
  · rcases record_eq_ok h with ⟨fields, rfl, hparts⟩ | ⟨expected, items, rfl, hparts⟩
    all_goals
      obtain ⟨_, -, hparts⟩ := bind_eq_ok.1 hparts
      obtain ⟨_, -, hparts⟩ := bind_eq_ok.1 hparts
      obtain ⟨data, hdata, hparts⟩ := bind_eq_ok.1 hparts
      cases hparts
      intro v hv
      obtain rfl := List.mem_singleton.1 hv
    · exact exists_of_needed hdata
    · exact exists_of_item hdata
  · rcases record_eq_ok h with ⟨fields, rfl, hparts⟩ | ⟨expected, items, rfl, hparts⟩
    all_goals
      obtain ⟨_, -, hparts⟩ := bind_eq_ok.1 hparts
      obtain ⟨_, -, hparts⟩ := bind_eq_ok.1 hparts
      cases hparts
      simp [data]

/-- The records of a reply are made of the items of a part of the content of the message. -/
theorem exists_of_replyForm {name : Text} {content : Json} {r : Reply}
    (h : Reply.form name content = .ok r) :
    (∃ message, r = .failure message) ∨
      ∃ rs, r = .records rs ∧ ∃ w ∈ content.children, asList Record.form w = .ok rs := by
  rw [Reply.form] at h
  split_ifs at h
  · rcases record_eq_ok h with ⟨fields, rfl, hparts⟩ | ⟨expected, items, rfl, hparts⟩
    all_goals
      obtain ⟨rs, hrs, hparts⟩ := bind_eq_ok.1 hparts
      cases hparts
    · exact Or.inr ⟨rs, rfl, exists_of_needed hrs⟩
    · exact Or.inr ⟨rs, rfl, exists_of_item hrs⟩
  · rcases record_eq_ok h with ⟨fields, rfl, hparts⟩ | ⟨expected, items, rfl, hparts⟩
    all_goals
      obtain ⟨message, -, hparts⟩ := bind_eq_ok.1 hparts
      cases hparts
      exact Or.inl ⟨message, rfl⟩

/-! ## What is decoded -/

/-- All data of a message is ready to be sent once more. -/
def Kept (m : Message) : Prop := ∀ v ∈ m.data, v.canonical = v ∧ v.depth < m.room

theorem kept_of_requestForm {name : Text} {content : Json} {r : Request}
    (hcontent : ∀ v ∈ content.children, v.depth < depthLimit - 1)
    (h : Request.form name content = .ok r) : (Message.request r).Kept := by
  intro v hv
  obtain ⟨w, hw, hwv⟩ := exists_of_requestForm h v hv
  exact kept_of_asData hwv (hcontent w hw)

theorem kept_of_replyForm {name : Text} {content : Json} {r : Reply}
    (hcontent : ∀ v ∈ content.children, v.depth < depthLimit - 1)
    (h : Reply.form name content = .ok r) : (Message.reply r).Kept := by
  intro v hv
  rcases exists_of_replyForm h with ⟨message, rfl⟩ | ⟨rs, rfl, w, hw, hrs⟩
  · cases hv
  · obtain ⟨r, hr, rfl⟩ := List.mem_map.1 hv
    cases w with
    | array items =>
      -- the data is a part of a record, which is an item of the list
      obtain ⟨item, hitem, hform⟩ := exists_of_mem_mapM hrs hr
      obtain ⟨part, hpart, hdata⟩ := Record.exists_of_form hform
      have hrecord : part.depth < item.depth := depth_lt_of_mem_children hpart
      have hlist : item.depth < (Json.array items).depth := depth_lt_of_mem_children hitem
      have hroom := hcontent _ hw
      refine kept_of_asData hdata ?_
      simp only [room]
      omega
    | null | bool _ | number _ | text _ | object _ => cases hrs

/-- What a document with a message holds has been read as a message with its name. -/
theorem exists_readTagged_of_readDocument {α : Type} {what tag : Text} {names : List Text}
    {form : Text → Form α} {document : Bytes} {a : α}
    (h : readDocument (readMessage what tag names form) document = .ok a) :
    ∃ name content rest, readTagged what tag names document = .ok ((name, content), rest) ∧
      form name content = .ok a := by
  obtain ⟨⟨a', left⟩, hread, h⟩ := bind_eq_ok.1 (mapError_eq_ok.1 h)
  obtain rfl : a' = a := by
    dsimp only at h
    split at h
    · cases h
      rfl
    · cases h
  obtain ⟨⟨⟨name, content⟩, rest⟩, htagged, hform⟩ := bind_eq_ok.1 hread
  refine ⟨name, content, rest, htagged, ?_⟩
  cases hf : form name content with
  | error e => simp [hf] at hform
  | ok b =>
    simp only [hf] at hform
    cases hform
    rfl

theorem kept_of_decode {e : Envelope} {m : Message} (h : e.decode = .ok m) : m.Kept := by
  rcases Envelope.exists_open_of_decode h with ⟨r, rfl, hr⟩ | ⟨r, rfl, hr⟩
  · obtain ⟨name, content, rest, htagged, hform⟩ := exists_readTagged_of_readDocument hr
    exact kept_of_requestForm (depth_of_readTagged htagged) hform
  · obtain ⟨name, content, rest, htagged, hform⟩ := exists_readTagged_of_readDocument hr
    exact kept_of_replyForm (depth_of_readTagged htagged) hform

end Message

/-! ## The codec -/

/-- The wire loses nothing. A message whose numbers are integers of 64 bits, with at most 127 lists
and objects inside each other in its payload, comes back from its envelope, and from no envelope of
the other kind. Decoding any envelope is opening it as what its tag names. And whatever the bytes
were that a message was decoded from, its own envelope is decoded as the same message. -/
theorem codec_lossless :
    (∀ m : Message, m.Integral → m.Canonical → m.toJson.depth < depthLimit →
      m.seal.decode = .ok m ∧ m.Opens m.seal) ∧
    (∀ e : Envelope, e.Consistent) ∧
    ∀ (e : Envelope) (m : Message), e.decode = .ok m → m.Integral → m.seal.decode = .ok m := by
  refine ⟨fun m hintegral hcanonical hdepth => ?_, Envelope.consistent, fun e m hm hintegral => ?_⟩
  · exact Message.opens_seal hintegral hcanonical (Message.fits_of_depth hdepth)
  · have hkept := Message.kept_of_decode hm
    exact (Message.opens_seal hintegral (fun v hv => (hkept v hv).1) fun v hv => (hkept v hv).2).1

/-- Data with a negative number, escapes of several kinds, and objects inside each other. -/
def escapedData : Json :=
  .object [("a \"b\"", .number (.negSucc 6)), ("n\n", .array [.object [], .text "\u0001é😀"])]

/-- A request to add a record, its name and its data among the other fields, and the fields of the
data in another order. -/
def shuffledEnvelope : Envelope :=
  ⟨Request.manifest, Utf8.encode ("\x7b\"active\": true, \"data\": \x7b\"n\\n\": [\x7b\x7d, " ++
    "\"\\u0001é\\ud83d\\ude00\"], \"a \\\"b\\\"\": -7\x7d, \"op\": \"add\", " ++
    "\"data_type\": \"record\"\x7d")⟩

/-- The message with this data comes back as it is, and so does what is decoded from the envelope,
which becomes the envelope of such a message. -/
theorem codec_lossless_escaped :
    (Message.reply (.records [⟨7, .company, true, escapedData⟩])).seal.decode =
      .ok (.reply (.records [⟨7, .company, true, escapedData⟩])) ∧
    ∃ m, shuffledEnvelope.decode = .ok m ∧
      m.seal = (Request.add .record true escapedData).seal ∧ m.seal.decode = .ok m := by
  have hintegral : escapedData.integral = true := rfl
  have hcanonical : escapedData.canonical = escapedData := rfl
  have hdecode : (shuffledEnvelope.decode.toOption.any fun m => m.data.all Json.integral &&
      m.seal == (Request.add .record true escapedData).seal) = true := by decide +kernel
  constructor
  · refine (codec_lossless.1 _ ?_ ?_ ?_).1
    · simp [Message.Integral, Message.data, hintegral]
    · simp [Message.Canonical, Message.data, hcanonical]
    · decide
  · cases hm : shuffledEnvelope.decode with
    | error e =>
      rw [hm] at hdecode
      cases hdecode
    | ok m =>
      rw [hm] at hdecode
      obtain ⟨hm', hseal⟩ : (∀ v ∈ m.data, v.integral = true) ∧
          m.seal = (Request.add .record true escapedData).seal := by
        simpa [Except.toOption] using hdecode
      exact ⟨m, rfl, hseal, codec_lossless.2.2 _ m hm hm'⟩

end ClusterConsole
