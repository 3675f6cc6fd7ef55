/-
Whole documents. A document that holds the text of a value is read as the value is read back there
(`read_encode`), and a message, its name in one of the fields, as its name and what its other fields
are read back as (`readMessage_write`).
-/
import ClusterConsole.Json.Stream
import ClusterConsole.Proofs.Json.Value
import ClusterConsole.Record.Wire

namespace ClusterConsole.Json

/-! ## Values without floating-point numbers -/

mutual

/-- Whether every number in a value is an integer of 64 bits. -/
def integral : Json → Bool
  | .number (.float _) => false
  | .array items => integralItems items
  | .object fields => integralFields fields
  | _ => true

/-- Whether every number in the items is an integer of 64 bits. -/
def integralItems : List Json → Bool
  | [] => true
  | v :: vs => integral v && integralItems vs

/-- Whether every number in the fields is an integer of 64 bits. -/
def integralFields : List (Text × Json) → Bool
  | [] => true
  | (_, v) :: fs => integral v && integralFields fs

end

mutual

/-- A value without floating-point numbers is read back as it was written. -/
theorem reread_of_integral : ∀ v : Json, v.integral = true → v.reread = some v
  | .null, _ => rfl
  | .bool _, _ => rfl
  | .text _, _ => rfl
  | .number (.natural n), _ => by rw [reread, reread_natural]; rfl
  | .number (.negSucc n), _ => by rw [reread, reread_negSucc]; rfl
  | .number (.float _), h => by simp [integral] at h
  | .array items, h => by
    have hitems := rereadItems_of_integral items (by simpa [integral] using h)
    rw [reread, hitems]
    rfl
  | .object fields, h => by
    have hfields := rereadFields_of_integral fields (by simpa [integral] using h)
    rw [reread, hfields]
    rfl

theorem rereadItems_of_integral : ∀ items, integralItems items = true →
    rereadItems items = some items
  | [], _ => rfl
  | v :: vs, h => by
    obtain ⟨hv, hvs⟩ : v.integral = true ∧ integralItems vs = true := by
      simpa [integralItems] using h
    rw [rereadItems, reread_of_integral v hv, rereadItems_of_integral vs hvs]
    rfl

theorem rereadFields_of_integral : ∀ fields, integralFields fields = true →
    rereadFields fields = some fields
  | [], _ => rfl
  | (k, v) :: fs, h => by
    obtain ⟨hv, hfs⟩ : v.integral = true ∧ integralFields fs = true := by
      simpa [integralFields] using h
    rw [rereadFields, reread_of_integral v hv, rereadFields_of_integral fs hfs]
    rfl

end

/-! ## Documents -/

/-- A reader that gets through to the end of a document reads it; one that spoils it does not. -/
theorem readDocument_toOption {α : Type} {reader : Read α} {document : Bytes} {expected : Option α}
    (h : Reads (reader document) expected []) :
    (readDocument reader document).toOption = expected := by
  unfold readDocument
  cases expected with
  | some a =>
    rw [show reader document = .ok (a, []) from h]
    rfl
  | none =>
    cases hread : reader document with
    | error e => rfl
    | ok p =>
      obtain ⟨a, left⟩ := p
      -- what is left goes on with a number, so the document does not end there
      obtain ⟨b, more, rfl, hb⟩ := h a left hread
      dsimp only [bind, Except.bind]
      rw [skipGaps_cons (isGap_of_isNumberByte hb)]
      rfl

/-- The document that holds a value is read as the value is read back. -/
theorem read_encode (v : Json) : (read (encode v)).toOption = rereadAt depthLimit v := by
  refine readDocument_toOption ?_
  have h := readAt_write v depthLimit [] delimited_nil
  rwa [List.append_nil] at h

theorem readValue_encode (v : Json) :
    (readValue (encode v)).toOption = (rereadAt depthLimit v).map canonical := by
  rw [← read_encode, readValue]
  cases read (encode v) <;> rfl

/-! ## Messages -/

/-- The name and the other fields of a message, with one more field. -/
def stepTagged (tag : Text) (s : Option Text × List (Text × Json)) (p : Text × Json) :
    Option (Option Text × List (Text × Json)) :=
  if p.1 = tag then
    match s.1, p.2 with
    | none, .text name => some (some name, s.2)
    | _, _ => none
  else (stepField (depthLimit - 1) s.2 p).map (s.1, ·)

theorem foldlM_stepTagged {tag : Text} {fields : List (Text × Json)}
    (hfields : ∀ p ∈ fields, p.1 ≠ tag) (name : Option Text) (s : List (Text × Json)) :
    fields.foldlM (stepTagged tag) (name, s) =
      (fields.foldlM (stepField (depthLimit - 1)) s).map (name, ·) := by
  induction fields generalizing s with
  | nil => rfl
  | cons p fields ih =>
    rw [List.foldlM_cons, List.foldlM_cons, stepTagged, if_neg (hfields p (by simp))]
    cases stepField (depthLimit - 1) s p with
    | none => rfl
    | some s' => exact ih (fun q hq => hfields q (by simp [hq])) s'

theorem readName_write {known : List Text} {name : Text} (hname : known.contains name = true)
    (rest : Bytes) : readName known (encode (.text name) ++ rest) = .ok (name, rest) := by
  have hread : readTextValue "variant identifier" (encode (.text name) ++ rest) =
      .ok (name, rest) := by
    rw [encode_text, readTextValue, skipGaps_cons (by decide)]
    exact readText_write name rest
  rw [readName, hread]
  show (if known.contains name then _ else _) = _
  rw [if_pos hname]
  rfl

theorem readsField_tag (tag : Text) {known : List Text} {name : Text}
    (hname : known.contains name = true) :
    ReadsField (taggedField tag known) (stepTagged tag) (tag, .text name) := by
  intro s more hmore
  obtain ⟨seen, fields⟩ := s
  rw [taggedField, if_pos rfl, stepTagged, if_pos rfl]
  -- a name that comes a second time is refused
  cases seen with
  | some _ => exact spoiled_error _
  | none =>
    show _ = _
    simp only [readColon_cons, readName_write hname, bind, Except.bind]
    rfl

theorem readsField_other {tag : Text} (known : List Text) {p : Text × Json} (hp : p.1 ≠ tag) :
    ReadsField (taggedField tag known) (stepTagged tag) p := by
  intro s more hmore
  have hread := readAt_write p.2 (depthLimit - 1) more hmore
  have hfield : taggedField tag known s p.1 (0x3A :: (encode p.2 ++ more)) =
      (readAt (depthLimit - 1) (encode p.2 ++ more)).map
        fun q => ((s.1, (p.1, q.1) :: s.2), q.2) := by
    rw [taggedField, if_neg hp, readColon_cons]
    rfl
  rw [hfield, stepTagged, if_neg hp, stepField, Option.map_map]
  exact hread.map fun w => (s.1, (p.1, w) :: s.2)

/-- What the fields of a message besides its name are read back as. -/
def rereadContent (fields : List (Text × Json)) : Option (List (Text × Json)) :=
  if depthFields fields < depthLimit - 1 then rereadFields fields else none

/-- A message is read as its name and its other fields, if these are read back. -/
theorem readTagged_write (what : Text) {tag : Text} {known : List Text} {name : Text}
    (hname : known.contains name = true) {fields : List (Text × Json)}
    (hfields : ∀ p ∈ fields, p.1 ≠ tag) (rest : Bytes) :
    Reads (readTagged what tag known (encode (.object ((tag, .text name) :: fields)) ++ rest))
      ((rereadContent fields).map fun fs => (name, .object fs)) rest := by
  have hread : ReadsOrHalts
      (readFields (taggedField tag known) ((fieldsText ((tag, .text name) :: fields) rest).length + 1)
        true (none, []) (fieldsText ((tag, .text name) :: fields) rest))
      (((tag, .text name) :: fields).foldlM (stepTagged tag) (none, [])) (0x7D :: rest) := by
    refine readFields_write ?_ (Nat.lt_succ_of_lt (length_lt_fieldsText _ rest)) (none, []) rest
    intro p hp
    rcases List.mem_cons.1 hp with rfl | hp
    · exact readsField_tag tag hname
    · exact readsField_other known (hfields p hp)
  have hfold : ((tag, Json.text name) :: fields).foldlM (stepTagged tag) (none, []) =
      (rereadContent fields).map fun fs => (some name, fs.reverse) := by
    rw [List.foldlM_cons, stepTagged, if_pos rfl]
    show fields.foldlM (stepTagged tag) (some name, []) = _
    rw [foldlM_stepTagged hfields, show depthLimit - 1 = 126 + 1 from rfl, foldlM_stepField,
      Option.map_map, rereadContent]
    refine congrArg (Option.map · _) (funext fun fs => ?_)
    simp
  rw [hfold] at hread
  rw [encode_object]
  generalize fieldsText ((tag, .text name) :: fields) rest = bs at hread
  have hstart : readTagged what tag known (0x7B :: bs) =
      placeInObject (taggedObject tag known bs) >>= fun p =>
        (closeObject p.2).map fun rest => (p.1, rest) := by
    rw [readTagged, skipGaps_cons (by decide)]
    rfl
  rw [hstart]
  refine Reads.of_halts ?_
  cases hcontent : rereadContent fields with
  | none =>
    rw [hcontent] at hread
    obtain ⟨e, he⟩ := hread
    have hobject : taggedObject tag known bs = .error e := by
      rw [taggedObject, he]
      rfl
    rw [hobject]
    cases e <;> exact ⟨_, rfl⟩
  | some fs =>
    rw [hcontent] at hread
    have hobject : taggedObject tag known bs = .ok ((name, .object fs), 0x7D :: rest) := by
      have hread' : readFields (taggedField tag known) (bs.length + 1) true (none, []) bs =
          .ok ((some name, fs.reverse), 0x7D :: rest) := hread
      rw [taggedObject, hread']
      simp [bind, Except.bind, pure, Except.pure]
    rw [hobject]
    show (closeObject (0x7D :: rest)).map _ = .ok _
    rw [closeObject_cons]
    rfl

/-- A document that holds a message is read as what its content stands for. -/
theorem readMessage_write {α : Type} (what : Text) {tag : Text} {names : List Text} {name : Text}
    (hname : names.contains name = true) {fields : List (Text × Json)}
    (hfields : ∀ p ∈ fields, p.1 ≠ tag) (form : Text → Form α) :
    (readDocument (readMessage what tag names form)
      (encode (.object ((tag, .text name) :: fields)))).toOption =
      (rereadContent fields).bind fun fs => (form name (.object fs)).toOption := by
  refine readDocument_toOption ?_
  have hread := readTagged_write what hname hfields []
  rw [List.append_nil] at hread
  rw [readMessage]
  cases hcontent : rereadContent fields with
  | none =>
    rw [hcontent] at hread
    intro a left ha
    obtain ⟨⟨⟨n, content⟩, left'⟩, hp, ha⟩ := bind_eq_ok.1 ha
    have := hread _ _ hp
    cases hform : form n content with
    | error m => simp [hform] at ha
    | ok b =>
      simp only [hform] at ha
      cases ha
      exact this
  | some fs =>
    rw [hcontent] at hread
    have hread' : readTagged what tag names (encode (.object ((tag, .text name) :: fields))) =
        .ok ((name, .object fs), []) := hread
    rw [hread', Option.bind_some]
    dsimp only [bind, Except.bind]
    cases form name (.object fs) with
    | error m => exact spoiled_error (.unplaced m)
    | ok a => rfl

end ClusterConsole.Json
