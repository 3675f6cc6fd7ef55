/-
Messages about records across the wire. Only the data of a record can be lost or changed: a request
is read back with the data that its text is read back as, if lists and objects stand at most 126
deep in it (`Request.decode_encode`), a reply, which nests each record two deeper, if they stand at
most 124 deep (`Reply.decode_encode`).
-/
import ClusterConsole.Proofs.Json.Document

namespace ClusterConsole

open Json

/-! ## Parts -/

theorem DataType.form_name (t : DataType) : DataType.form (.text t.name) = .ok t := by
  cases t <;> rfl

theorem asList_ofIds (ids : List UInt64) : asList asUInt64 (.ofIds ids) = .ok ids := by
  have hmap : (ids.map Json.ofUInt64).mapM asUInt64 = .ok ids := by
    induction ids with
    | nil => rfl
    | cons id ids ih =>
      rw [List.map_cons, List.mapM_cons, ih]
      rfl
  exact hmap

theorem asOption_ofStatus (active : Option Bool) :
    asOption asBool (.ofStatus active) = .ok active := by
  cases active <;> rfl

theorem integral_ofIds (ids : List UInt64) : (Json.ofIds ids).integral = true := by
  have hmap : integralItems (ids.map Json.ofUInt64) = true := by
    induction ids with
    | nil => rfl
    | cons id ids ih =>
      rw [List.map_cons, integralItems, ih]
      rfl
  simpa [Json.ofIds, integral] using hmap

theorem depth_ofIds (ids : List UInt64) : (Json.ofIds ids).depth = 1 := by
  have hmap : depthItems (ids.map Json.ofUInt64) = 0 := by
    induction ids with
    | nil => rfl
    | cons id ids ih =>
      rw [List.map_cons, depthItems, ih]
      rfl
  rw [Json.ofIds, depth, hmap]

theorem integral_ofStatus (active : Option Bool) : (Json.ofStatus active).integral = true := by
  cases active <;> rfl

theorem depth_ofStatus (active : Option Bool) : (Json.ofStatus active).depth = 0 := by
  cases active <;> rfl

/-! ## Requests -/

/-- What a request is read back as. -/
def Request.reread : Request → Option Request
  | .add t active data =>
    (rereadAt (depthLimit - 1) data).map fun w => .add t active w.canonical
  | r => some r

/-- The fields of a request besides its name. -/
def Request.content : Request → List (Text × Json)
  | .getAll t => [("data_type", .text t.name)]
  | .getByIds t ids active =>
    [("data_type", .text t.name), ("ids", .ofIds ids), ("active", .ofStatus active)]
  | .add t active data =>
    [("data_type", .text t.name), ("active", .bool active), ("data", data)]
  | .delete t ids => [("data_type", .text t.name), ("ids", .ofIds ids)]

/-- The name of a request. -/
def Request.name : Request → Text
  | .getAll _ => "get_all"
  | .getByIds .. => "get_by_ids"
  | .add .. => "add"
  | .delete .. => "delete"

theorem Request.toJson_eq (r : Request) :
    r.toJson = .object (("op", .text r.name) :: r.content) := by
  cases r <;> rfl

theorem Request.key_ne_of_mem_content {r : Request} {p : Text × Json} (h : p ∈ r.content) :
    p.1 ≠ ("op" : Text) := by
  have hkeys : ("op" : Text) ∉ r.content.map Prod.fst := by
    cases r <;> simp only [Request.content, List.map_cons, List.map_nil] <;> decide
  intro hp
  exact hkeys (hp ▸ List.mem_map_of_mem h)

theorem Request.form_getAll (t : DataType) :
    Request.form "get_all" (.object [("data_type", .text t.name)]) = .ok (.getAll t) := by
  cases t <;> rfl

theorem Request.form_getByIds (t : DataType) (ids : List UInt64) (active : Option Bool) :
    Request.form "get_by_ids" (.object [("data_type", .text t.name), ("ids", .ofIds ids),
      ("active", .ofStatus active)]) = .ok (.getByIds t ids active) := by
  -- every field is checked in the order of the text before any of them is taken
  show (checked DataType.form (.text t.name) >>= fun _ =>
      checked (asList asUInt64) (.ofIds ids) >>= fun _ =>
      checked (asOption asBool) (.ofStatus active) >>= fun _ => .ok ()) >>= (fun _ =>
    DataType.form (.text t.name) >>= fun dataType =>
      asList asUInt64 (.ofIds ids) >>= fun ids =>
      asOption asBool (.ofStatus active) >>= fun active =>
      .ok (Request.getByIds dataType ids active)) = _
  simp only [checked, DataType.form_name, asList_ofIds, asOption_ofStatus]
  rfl

theorem Request.form_delete (t : DataType) (ids : List UInt64) :
    Request.form "delete" (.object [("data_type", .text t.name), ("ids", .ofIds ids)]) =
      .ok (.delete t ids) := by
  show (checked DataType.form (.text t.name) >>= fun _ =>
      checked (asList asUInt64) (.ofIds ids) >>= fun _ => .ok ()) >>= (fun _ =>
    DataType.form (.text t.name) >>= fun dataType =>
      asList asUInt64 (.ofIds ids) >>= fun ids => .ok (Request.delete dataType ids)) = _
  simp only [checked, DataType.form_name, asList_ofIds]
  rfl

theorem Request.form_add (t : DataType) (active : Bool) (data : Json) :
    Request.form "add" (.object [("data_type", .text t.name), ("active", .bool active),
      ("data", data)]) = .ok (.add t active data.canonical) := by
  cases t <;> rfl

theorem rereadContent_of_integral {fields : List (Text × Json)}
    (hfields : integralFields fields = true) (hdepth : depthFields fields < depthLimit - 1) :
    rereadContent fields = some fields := by
  rw [rereadContent, if_pos hdepth, rereadFields_of_integral fields hfields]

/-- The content of a request that adds a record is read back if its data is. -/
theorem Request.rereadContent_add (t : DataType) (active : Bool) (data : Json) :
    rereadContent (Request.add t active data).content =
      (rereadAt (depthLimit - 1) data).map fun w => (Request.add t active w).content := by
  have hdepth : depthFields (Request.add t active data).content = data.depth := by
    simp [Request.content, depthFields, depth]
  rw [rereadContent, hdepth, rereadAt]
  split_ifs
  · simp only [Request.content, rereadFields]
    cases data.reread <;> rfl
  · rfl

theorem Request.rereadContent_bind (r : Request) :
    (rereadContent r.content).bind (fun fs => (Request.form r.name (.object fs)).toOption) =
      r.reread := by
  cases r with
  | getAll t =>
    have hcontent : rereadContent (Request.getAll t).content = some (Request.getAll t).content :=
      rereadContent_of_integral rfl (by simp [Request.content, depthFields, depth, depthLimit])
    rw [hcontent, Option.bind_some]
    exact congrArg Except.toOption (Request.form_getAll t)
  | getByIds t ids active =>
    have hcontent : rereadContent (Request.getByIds t ids active).content =
        some (Request.getByIds t ids active).content := by
      refine rereadContent_of_integral ?_ ?_
      · simp [Request.content, integralFields, integral_ofIds, integral_ofStatus, integral]
      · simp [Request.content, depthFields, depth_ofIds, depth_ofStatus, depth, depthLimit]
    rw [hcontent, Option.bind_some]
    exact congrArg Except.toOption (Request.form_getByIds t ids active)
  | add t active data =>
    rw [Request.rereadContent_add, Request.reread]
    cases rereadAt (depthLimit - 1) data with
    | none => rfl
    | some w => exact congrArg Except.toOption (Request.form_add t active w)
  | delete t ids =>
    have hcontent : rereadContent (Request.delete t ids).content =
        some (Request.delete t ids).content := by
      refine rereadContent_of_integral ?_ ?_
      · simp [Request.content, integralFields, integral_ofIds, integral]
      · simp [Request.content, depthFields, depth_ofIds, depth, depthLimit]
    rw [hcontent, Option.bind_some]
    exact congrArg Except.toOption (Request.form_delete t ids)

/-- The document that holds a request is decoded as the request is read back. -/
theorem Request.decode_encode (r : Request) :
    (Request.decode r.toJson.encode).toOption = r.reread := by
  have hname : Request.names.contains r.name = true := by cases r <;> rfl
  rw [Request.toJson_eq, Request.decode,
    readMessage_write _ hname (fun p hp => Request.key_ne_of_mem_content hp)]
  exact Request.rereadContent_bind r

/-! ## Replies -/

/-- What a record is read back as, inside a reply. -/
def Record.reread (r : Record) : Option Record :=
  (rereadAt (depthLimit - 3) r.data).map fun w => { r with data := w.canonical }

/-- What a reply is read back as. -/
def Reply.reread : Reply → Option Reply
  | .records rs => (rs.mapM Record.reread).map .records
  | .failure message => some (.failure message)

/-- The fields of a reply that carries records, besides its name. -/
def Reply.recordsContent (records : List Json) : List (Text × Json) := [("records", .array records)]

/-- The fields of a reply that reports a failure, besides its name. -/
def Reply.failureContent (message : Text) : List (Text × Json) := [("message", .text message)]

theorem Record.form_fields (id : UInt64) (t : DataType) (active : Bool) (data : Json) :
    Record.form (.object [("id", .ofUInt64 id), ("data_type", .text t.name),
      ("active", .bool active), ("data", data)]) = .ok ⟨id, t, active, data.canonical⟩ := by
  cases t <;> rfl

theorem Record.rereadAt_toJson (r : Record) :
    (rereadAt (depthLimit - 2) r.toJson).bind (fun v => (Record.form v).toOption) = r.reread := by
  have hdepth : r.toJson.depth = r.data.depth + 1 := by
    simp [Record.toJson, Json.ofUInt64, depth, depthFields]
  have hreread : r.toJson.reread = r.data.reread.map fun w =>
      .object [("id", .ofUInt64 r.id), ("data_type", .text r.dataType.name),
        ("active", .bool r.active), ("data", w)] := by
    simp only [Record.toJson, Json.ofUInt64, Json.reread, rereadFields, reread_natural]
    cases r.data.reread <;> rfl
  rw [rereadAt, hdepth, hreread, Record.reread, rereadAt]
  -- the record itself is one of the objects that its data stands in
  have hlimit : r.data.depth + 1 < depthLimit - 2 ↔ r.data.depth < depthLimit - 3 := by
    simp only [depthLimit]
    omega
  rw [if_congr hlimit rfl rfl]
  split_ifs
  · cases r.data.reread with
    | none => rfl
    | some w => exact congrArg Except.toOption (Record.form_fields r.id r.dataType r.active w)
  · rfl

/-- The content of a reply that carries records is read back if the data of each record is. -/
theorem Reply.rereadContent_records (rs : List Record) :
    rereadContent (Reply.recordsContent (rs.map Record.toJson)) =
      ((rs.map Record.toJson).mapM (rereadAt (depthLimit - 2))).map Reply.recordsContent := by
  rw [show depthLimit - 2 = 125 + 1 from rfl, mapM_rereadAt, rereadContent, Reply.recordsContent,
    depthFields, depthFields, depth, Nat.max_zero, rereadFields, rereadFields, Json.reread]
  have hlimit : depthItems (rs.map Record.toJson) + 1 < depthLimit - 1 ↔
      depthItems (rs.map Record.toJson) < 125 + 1 := by
    simp only [depthLimit]
    omega
  rw [if_congr hlimit rfl rfl]
  split_ifs
  · cases rereadItems (rs.map Record.toJson) <;> rfl
  · rfl

theorem Record.mapM_reread (rs : List Record) :
    ((rs.map Record.toJson).mapM (rereadAt (depthLimit - 2))).bind
      (fun vs => (vs.mapM Record.form).toOption) = rs.mapM Record.reread := by
  induction rs with
  | nil => rfl
  | cons r rs ih =>
    rw [List.map_cons, List.mapM_cons, List.mapM_cons, ← ih, ← Record.rereadAt_toJson]
    cases rereadAt (depthLimit - 2) r.toJson with
    | none => rfl
    | some v =>
      cases (rs.map Record.toJson).mapM (rereadAt (depthLimit - 2)) with
      | none =>
        simp only [Option.bind_eq_bind, Option.bind_some, Option.bind_none]
        cases Record.form v <;> rfl
      | some vs =>
        simp only [Option.bind_eq_bind, Option.bind_some, Option.pure_def, List.mapM_cons]
        cases Record.form v with
        | error m => rfl
        | ok a => cases vs.mapM Record.form <;> rfl

theorem Reply.form_records (vs : List Json) :
    Reply.form "records" (.object (Reply.recordsContent vs)) =
      (vs.mapM Record.form).map .records := by
  show (checked (asList Record.form) (.array vs) >>= fun _ => .ok ()) >>= (fun _ =>
    asList Record.form (.array vs) >>= fun rs => .ok (Reply.records rs)) = _
  simp only [checked, asList]
  cases vs.mapM Record.form <;> rfl

/-- The document that holds a reply is decoded as the reply is read back. -/
theorem Reply.decode_encode (r : Reply) : (Reply.decode r.toJson.encode).toOption = r.reread := by
  rw [Reply.decode]
  cases r with
  | records rs =>
    have hkeys : ∀ p ∈ Reply.recordsContent (rs.map Record.toJson), p.1 ≠ ("status" : Text) := by
      intro p hp
      rw [List.mem_singleton.1 hp]
      simp
    have hread := readMessage_write "internally tagged enum PersistenceReply"
      (show Reply.names.contains "records" = true by decide) hkeys Reply.form
    rw [Reply.rereadContent_records] at hread
    rw [Reply.reread, ← Record.mapM_reread]
    refine hread.trans ?_
    cases (rs.map Record.toJson).mapM (rereadAt (depthLimit - 2)) with
    | none => rfl
    | some vs =>
      simp only [Option.map_some, Option.bind_some, Reply.form_records]
      cases vs.mapM Record.form <;> rfl
  | failure message =>
    have hkeys : ∀ p ∈ Reply.failureContent message, p.1 ≠ ("status" : Text) := by
      intro p hp
      rw [List.mem_singleton.1 hp]
      simp
    have hcontent : rereadContent (Reply.failureContent message) =
        some (Reply.failureContent message) :=
      rereadContent_of_integral rfl (by simp [Reply.failureContent, depthFields, depth, depthLimit])
    have hread := readMessage_write "internally tagged enum PersistenceReply"
      (show Reply.names.contains "failure" = true by decide) hkeys Reply.form
    rw [hcontent] at hread
    exact hread

/-! ## Envelopes -/

/-- The envelope of a request is decoded as the request is read back. -/
theorem Request.decode_seal (r : Request) : r.seal.decode.toOption = r.reread.map .request := by
  show ((Request.decode r.toJson.encode).map Message.request
    |>.mapError ConsoleError.json).toOption = _
  rw [toOption_mapError, ← Request.decode_encode]
  cases Request.decode r.toJson.encode <;> rfl

theorem Request.decode_seal_eq_ok {r r' : Request} :
    r.seal.decode = .ok (.request r') ↔ r.reread = some r' := by
  rw [← toOption_eq_some, Request.decode_seal, Option.map_eq_some_iff]
  simp

/-- The envelope of a reply is opened as the reply is read back. -/
theorem Reply.openReply_seal (r : Reply) : r.seal.openReply.toOption = r.reread := by
  rw [Reply.seal, Envelope.openReply, if_pos rfl, toOption_mapError, Reply.decode_encode]

theorem Reply.openReply_seal_eq_ok {r r' : Reply} :
    r.seal.openReply = .ok r' ↔ r.reread = some r' := by
  rw [← toOption_eq_some, Reply.openReply_seal]

end ClusterConsole
