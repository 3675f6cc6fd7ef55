/-
Values on the wire, whatever surrounds them: a value that is not nested too deeply for the place
where it stands is read back as `reread` says, and any other spoils the document (`readAt_write`).
Readers of lists and objects are followed item by item (`readItems_item`, `readFields_item`).
-/
import ClusterConsole.Proofs.Json.Number
import ClusterConsole.Proofs.Json.Text

namespace ClusterConsole.Json

/-! ## Depth and reading back -/

mutual

/-- How many lists and objects stand inside each other. -/
def depth : Json → Nat
  | .array items => depthItems items + 1
  | .object fields => depthFields fields + 1
  | _ => 0

/-- The depth of the deepest item. -/
def depthItems : List Json → Nat
  | [] => 0
  | v :: vs => max (depth v) (depthItems vs)

/-- The depth of the deepest field. -/
def depthFields : List (Text × Json) → Nat
  | [] => 0
  | (_, v) :: fs => max (depth v) (depthFields fs)

end

mutual

/-- What the text of a value is read back as; nothing if one of its numbers cannot be read. -/
def reread : Json → Option Json
  | .number n => n.reread.map .number
  | .array items => (rereadItems items).map .array
  | .object fields => (rereadFields fields).map .object
  | v => some v

/-- What the texts of items are read back as. -/
def rereadItems : List Json → Option (List Json)
  | [] => some []
  | v :: vs => do return (← reread v) :: (← rereadItems vs)

/-- What the texts of fields are read back as. -/
def rereadFields : List (Text × Json) → Option (List (Text × Json))
  | [] => some []
  | (k, v) :: fs => do return (k, ← reread v) :: (← rereadFields fs)

end

/-- What is read back at a place where lists and objects may stand at most `d - 1` deep. -/
def rereadAt (d : Nat) (v : Json) : Option Json := if v.depth < d then v.reread else none

/-- A property of values holds of all if it holds of lists and objects when it holds of what they
are made of. -/
theorem induction {P : Json → Prop} (null : P .null) (bool : ∀ b, P (.bool b))
    (number : ∀ n, P (.number n)) (text : ∀ t, P (.text t))
    (array : ∀ items, (∀ v ∈ items, P v) → P (.array items))
    (object : ∀ fields, (∀ p ∈ fields, P p.2) → P (.object fields)) : ∀ v, P v
  | .null => null
  | .bool b => bool b
  | .number n => number n
  | .text t => text t
  | .array items => array items fun v _ => induction null bool number text array object v
  | .object fields => object fields fun p hp => by
    obtain ⟨k, v⟩ := p
    have : sizeOf v < sizeOf fields := by
      have h1 := List.sizeOf_lt_of_mem hp
      have h2 : sizeOf (k, v) = 1 + sizeOf k + sizeOf v := rfl
      omega
    exact induction null bool number text array object v

theorem mapM_rereadAt (d : Nat) (items : List Json) :
    items.mapM (rereadAt (d + 1)) =
      if depthItems items < d + 1 then rereadItems items else none := by
  induction items with
  | nil => rfl
  | cons v vs ih =>
    rw [List.mapM_cons, ih, rereadAt, depthItems, rereadItems]
    -- the depth of the items is bounded when that of each is
    by_cases hv : v.depth < d + 1
    · by_cases hvs : depthItems vs < d + 1
      · rw [if_pos hv, if_pos hvs, if_pos (by omega)]
      · rw [if_pos hv, if_neg hvs, if_neg (by omega)]
        cases v.reread <;> rfl
    · have hmax : ¬ max v.depth (depthItems vs) < d + 1 := by omega
      rw [if_neg hv, if_neg hmax]
      rfl

/-- The fields read so far, the latest first, with one more. -/
def stepField (d : Nat) (s : List (Text × Json)) (p : Text × Json) : Option (List (Text × Json)) :=
  (rereadAt d p.2).map fun w => (p.1, w) :: s

theorem foldlM_stepField (d : Nat) (fields s : List (Text × Json)) :
    fields.foldlM (stepField (d + 1)) s =
      (if depthFields fields < d + 1 then rereadFields fields else none).map (·.reverse ++ s) := by
  induction fields generalizing s with
  | nil => rfl
  | cons p fields ih =>
    obtain ⟨k, v⟩ := p
    rw [List.foldlM_cons, stepField, rereadAt, depthFields, rereadFields]
    by_cases hv : v.depth < d + 1
    · rw [if_pos hv]
      cases v.reread with
      | none => split_ifs <;> rfl
      | some w =>
        have hstep : (some w).map (fun w => (k, w) :: s) = some ((k, w) :: s) := rfl
        simp only [hstep, Option.bind_eq_bind, Option.bind_some, ih]
        by_cases hfs : depthFields fields < d + 1
        · rw [if_pos hfs, if_pos (by omega)]
          cases rereadFields fields with
          | none => rfl
          | some fs => simp
        · rw [if_neg hfs, if_neg (by omega)]
          rfl
    · have hmax : ¬ max v.depth (depthFields fields) < d + 1 := by omega
      rw [if_neg hv, if_neg hmax]
      rfl

/-! ## What a reader does with what was written -/

/-- A reader gets through to `rest` with what is expected, or spoils the document when nothing
is. -/
def Reads {α : Type} (r : Except Halt (α × Bytes)) (expected : Option α) (rest : Bytes) : Prop :=
  match expected with
  | some a => r = .ok (a, rest)
  | none => Spoiled r

/-- A reader gets through to `rest` with what is expected, or halts when nothing is. -/
def ReadsOrHalts {α : Type} (r : Except Halt (α × Bytes)) (expected : Option α) (rest : Bytes) :
    Prop :=
  match expected with
  | some a => r = .ok (a, rest)
  | none => ∃ e, r = .error e

theorem Reads.of_halts {α : Type} {r : Except Halt (α × Bytes)} {expected : Option α} {rest : Bytes}
    (h : ReadsOrHalts r expected rest) : Reads r expected rest := by
  cases expected with
  | some a => exact h
  | none =>
    obtain ⟨e, rfl⟩ := h
    exact spoiled_error e

/-- The end of a list or an object after what is in it. -/
theorem ReadsOrHalts.bind {α β : Type} {r : Except Halt (α × Bytes)} {expected : Option α}
    {close rest : Bytes} (h : ReadsOrHalts r expected close)
    {f : α × Bytes → Except Halt (β × Bytes)} {g : α → β}
    (hf : ∀ a, f (a, close) = .ok (g a, rest)) :
    ReadsOrHalts (r >>= f) (expected.map g) rest := by
  cases expected with
  | some a => exact bind_eq_ok.2 ⟨(a, close), h, hf a⟩
  | none =>
    obtain ⟨e, rfl⟩ := h
    exact ⟨e, rfl⟩

theorem Reads.map {α β : Type} {r : Except Halt (α × Bytes)} {expected : Option α} {rest : Bytes}
    (h : Reads r expected rest) (f : α → β) :
    Reads (r.map fun p => (f p.1, p.2)) (expected.map f) rest := by
  cases expected with
  | some a =>
    rw [show r = .ok (a, rest) from h]
    rfl
  | none =>
    intro b left hb
    obtain ⟨p, hp, heq⟩ := map_eq_ok.1 hb
    cases heq
    exact h p.1 p.2 hp

/-- The step after a reader that spoils the document halts when it halts before a number. -/
theorem exists_error_of_spoiled {α β : Type} {r : Except Halt (α × Bytes)} (h : Spoiled r)
    {f : α × Bytes → Except Halt β}
    (hf : ∀ a b more, isNumberByte b = true → ∃ e, f (a, b :: more) = .error e) :
    ∃ e, r >>= f = .error e := by
  cases r with
  | error e => exact ⟨e, rfl⟩
  | ok p =>
    obtain ⟨a, left⟩ := p
    obtain ⟨b, more, rfl, hb⟩ := h a left rfl
    exact hf a b more hb

/-- Texts with a separator between neighbours: the first, and each of the others with the separator
in front. -/
theorem join_cons (sep t : Text) (ts : List Text) :
    Text.join sep (t :: ts) = t ++ ts.flatMap (sep ++ ·) := by
  induction ts generalizing t with
  | nil => simp [Text.join]
  | cons u us ih =>
    rw [Text.join, List.intercalate_cons_cons, ← Text.join, ih, List.flatMap_cons]
    simp

theorem writeItems_eq_map (items : List Json) : writeItems items = items.map write := by
  induction items with
  | nil => rfl
  | cons v vs ih => rw [writeItems, ih, List.map_cons]

/-- The text of a field. -/
def writeField (p : Text × Json) : Text := writeText p.1 ++ ':' :: write p.2

theorem writeFields_eq_map (fields : List (Text × Json)) :
    writeFields fields = fields.map writeField := by
  induction fields with
  | nil => rfl
  | cons p fields ih =>
    obtain ⟨k, v⟩ := p
    rw [writeFields, ih, List.map_cons]
    rfl

/-- No value begins like a gap or the end of a list. -/
theorem exists_head (v : Json) :
    ∃ b more, encode v = b :: more ∧ isGap b = false ∧ b ≠ 0x5D := by
  cases v with
  | null => exact ⟨_, _, rfl, by decide, by decide⟩
  | bool b => cases b <;> exact ⟨_, _, rfl, by decide, by decide⟩
  | number n =>
    have hnumeric := numeric_encode (numberText_write n)
    cases he : Utf8.encode n.write with
    | nil => exact absurd (Utf8.encode_eq_nil_iff.1 he) n.write_ne_nil
    | cons b more =>
      have hb := hnumeric b (by rw [he]; simp)
      exact ⟨b, more, he, isGap_of_isNumberByte hb, ne_of_isNumberByte hb (by decide)⟩
  | text t => exact ⟨_, _, rfl, by decide, by decide⟩
  | array items => exact ⟨_, _, rfl, by decide, by decide⟩
  | object fields => exact ⟨_, _, rfl, by decide, by decide⟩

theorem nextItem_first (v : Json) (more : Bytes) :
    nextItem true (encode v ++ more) = .ok (.item, encode v ++ more) := by
  obtain ⟨b, rest, he, hgap, hclose⟩ := exists_head v
  rw [he, List.cons_append, nextItem, skipGaps_cons hgap]
  simp

theorem nextItem_comma (v : Json) (more : Bytes) :
    nextItem false (0x2C :: (encode v ++ more)) = .ok (.item, encode v ++ more) := by
  obtain ⟨b, rest, he, hgap, hclose⟩ := exists_head v
  rw [he, List.cons_append, nextItem, skipGaps_cons (by decide)]
  simp [skipGaps_cons hgap, hclose]

theorem nextItem_close (first : Bool) (more : Bytes) :
    nextItem first (0x5D :: more) = .ok (.close, 0x5D :: more) := by
  rw [nextItem, skipGaps_cons (by decide)]
  rfl

theorem readItems_number {α : Type} (item : Read α) (fuel : Nat) {b : UInt8}
    (hb : isNumberByte b = true) (more : Bytes) :
    ∃ e, readItems item fuel false (b :: more) = .error e := by
  cases fuel with
  | zero => exact ⟨_, rfl⟩
  | succ fuel =>
    have hclose : b ≠ 0x5D := ne_of_isNumberByte hb (by decide)
    have hcomma : b ≠ 0x2C := ne_of_isNumberByte hb (by decide)
    have hnext : ∃ e, nextItem false (b :: more) = .error e := by
      rw [nextItem, skipGaps_cons (isGap_of_isNumberByte hb)]
      simp [hcomma, haltAfter]
    obtain ⟨e, he⟩ := hnext
    rw [readItems, he]
    exact ⟨e, rfl⟩

/-- The items after the first as they are written, up to the end of the list. -/
def laterItems (items : List Json) (rest : Bytes) : Bytes :=
  items.flatMap (fun v => 0x2C :: encode v) ++ 0x5D :: rest

theorem delimited_laterItems (items : List Json) (rest : Bytes) :
    Delimited (laterItems items rest) := by
  cases items with
  | nil => exact delimited_cons _ (by decide)
  | cons v vs => exact delimited_cons _ (by decide)

/-- One item and those after it: they are read if it is read, and then the rest of the list. -/
theorem readItems_item {d fuel : Nat} {first : Bool} {v : Json} {vs : List Json}
    {bs rest : Bytes} (hnext : nextItem first bs = .ok (.item, encode v ++ laterItems vs rest))
    (hv : Reads (readAt d (encode v ++ laterItems vs rest)) (rereadAt d v) (laterItems vs rest))
    (hvs : ReadsOrHalts (readItems (readAt d) fuel false (laterItems vs rest))
      (vs.mapM (rereadAt d)) (0x5D :: rest)) :
    ReadsOrHalts (readItems (readAt d) (fuel + 1) first bs) ((v :: vs).mapM (rereadAt d))
      (0x5D :: rest) := by
  have hstep : readItems (readAt d) (fuel + 1) first bs =
      readAt d (encode v ++ laterItems vs rest) >>= fun p =>
        readItems (readAt d) fuel false p.2 >>= fun q => .ok (p.1 :: q.1, q.2) := by
    rw [readItems, hnext]
    rfl
  rw [hstep, List.mapM_cons]
  cases hw : rereadAt d v with
  | none =>
    rw [hw] at hv
    -- the item may have been read in part, but then the list does not go on as it has to
    refine exists_error_of_spoiled hv fun a b more hb => ?_
    obtain ⟨e, he⟩ := readItems_number (readAt d) fuel hb more
    exact ⟨e, by simp only [he]; rfl⟩
  | some w =>
    rw [hw] at hv
    have hv' : readAt d (encode v ++ laterItems vs rest) = .ok (w, laterItems vs rest) := hv
    rw [hv']
    cases hws : vs.mapM (rereadAt d) with
    | none =>
      rw [hws] at hvs
      obtain ⟨e, he⟩ := hvs
      exact ⟨e, by simp only [bind, Except.bind, he]⟩
    | some ws =>
      rw [hws] at hvs
      have hvs' : readItems (readAt d) fuel false (laterItems vs rest) =
          .ok (ws, 0x5D :: rest) := hvs
      show _ = _
      simp only [bind, Except.bind, hvs']

theorem readItems_later {d : Nat} {items : List Json} {rest : Bytes}
    (hitems : ∀ v ∈ items, ∀ more, Delimited more →
      Reads (readAt d (encode v ++ more)) (rereadAt d v) more) {fuel : Nat}
    (hfuel : items.length < fuel) :
    ReadsOrHalts (readItems (readAt d) fuel false (laterItems items rest))
      (items.mapM (rereadAt d)) (0x5D :: rest) := by
  induction items generalizing fuel with
  | nil =>
    obtain ⟨fuel, rfl⟩ : ∃ n, fuel = n + 1 := ⟨fuel - 1, by omega⟩
    show readItems (readAt d) (fuel + 1) false (0x5D :: rest) = .ok ([], 0x5D :: rest)
    rw [readItems, nextItem_close]
    rfl
  | cons v vs ih =>
    obtain ⟨fuel, rfl⟩ : ∃ n, fuel = n + 1 := ⟨fuel - 1, by simp at hfuel; omega⟩
    have hv := hitems v (by simp) _ (delimited_laterItems vs rest)
    have hvs := ih (fun w hw => hitems w (by simp [hw])) (by simpa using hfuel)
    refine readItems_item ?_ hv hvs
    rw [laterItems, List.flatMap_cons, List.append_assoc, List.cons_append]
    exact nextItem_comma v _

/-- The items as they are written, up to the end of the list. -/
def itemsText (items : List Json) (rest : Bytes) : Bytes :=
  Utf8.encode (Text.join "," (writeItems items)) ++ 0x5D :: rest

theorem itemsText_cons (v : Json) (vs : List Json) (rest : Bytes) :
    itemsText (v :: vs) rest = encode v ++ laterItems vs rest := by
  have hlater : Utf8.encode ((vs.map write).flatMap (("," : String).toList ++ ·)) =
      vs.flatMap fun v => 0x2C :: encode v := by
    induction vs with
    | nil => rfl
    | cons w vs ih =>
      rw [List.map_cons, List.flatMap_cons, Utf8.encode_append, ih]
      rfl
  rw [itemsText, writeItems_eq_map, List.map_cons, join_cons, Utf8.encode_append, hlater, laterItems,
    List.append_assoc]
  rfl

/-- The items of a list are read one after another. -/
theorem readItems_write {d : Nat} {items : List Json}
    (hitems : ∀ v ∈ items, ∀ more, Delimited more →
      Reads (readAt d (encode v ++ more)) (rereadAt d v) more) {fuel : Nat}
    (hfuel : items.length < fuel) (rest : Bytes) :
    ReadsOrHalts (readItems (readAt d) fuel true (itemsText items rest))
      (items.mapM (rereadAt d)) (0x5D :: rest) := by
  obtain ⟨fuel, rfl⟩ : ∃ n, fuel = n + 1 := ⟨fuel - 1, by omega⟩
  cases items with
  | nil =>
    show readItems (readAt d) (fuel + 1) true (0x5D :: rest) = .ok ([], 0x5D :: rest)
    rw [readItems, nextItem_close]
    rfl
  | cons v vs =>
    have hv := hitems v (by simp) _ (delimited_laterItems vs rest)
    have hvs : ReadsOrHalts (readItems (readAt d) fuel false (laterItems vs rest))
        (vs.mapM (rereadAt d)) (0x5D :: rest) :=
      readItems_later (fun w hw => hitems w (by simp [hw])) (by simpa using hfuel)
    refine readItems_item ?_ hv hvs
    rw [itemsText_cons]
    exact nextItem_first v _

/-! ## Fields -/

/-- The bytes of a field after its opening quote. -/
def fieldBytes (p : Text × Json) : Bytes :=
  Utf8.encode (p.1.flatMap writeChar) ++ 0x22 :: 0x3A :: encode p.2

theorem encode_writeField (p : Text × Json) :
    Utf8.encode (writeField p) = 0x22 :: fieldBytes p := by
  rw [writeField, writeText, fieldBytes, Utf8.encode_append, List.cons_append, Utf8.encode_cons,
    Utf8.encode_append, Utf8.encode_cons, List.append_assoc, List.append_assoc]
  rfl

/-- The fields after the first as they are written, up to the end of the object. -/
def laterFields (fields : List (Text × Json)) (rest : Bytes) : Bytes :=
  fields.flatMap (fun p => 0x2C :: 0x22 :: fieldBytes p) ++ 0x7D :: rest

theorem delimited_laterFields (fields : List (Text × Json)) (rest : Bytes) :
    Delimited (laterFields fields rest) := by
  cases fields with
  | nil => exact delimited_cons _ (by decide)
  | cons p fields => exact delimited_cons _ (by decide)

/-- The fields as they are written, up to the end of the object. -/
def fieldsText (fields : List (Text × Json)) (rest : Bytes) : Bytes :=
  Utf8.encode (Text.join "," (writeFields fields)) ++ 0x7D :: rest

theorem fieldsText_cons (p : Text × Json) (fields : List (Text × Json)) (rest : Bytes) :
    fieldsText (p :: fields) rest = 0x22 :: (fieldBytes p ++ laterFields fields rest) := by
  have hlater : Utf8.encode ((fields.map writeField).flatMap (("," : String).toList ++ ·)) =
      fields.flatMap fun p => 0x2C :: 0x22 :: fieldBytes p := by
    induction fields with
    | nil => rfl
    | cons q fields ih =>
      rw [List.map_cons, List.flatMap_cons, Utf8.encode_append, ih, Utf8.encode_append,
        encode_writeField]
      rfl
  rw [fieldsText, writeFields_eq_map, List.map_cons, join_cons, Utf8.encode_append, hlater,
    encode_writeField, laterFields, List.append_assoc]
  rfl

theorem nextKey_close (first : Bool) (more : Bytes) :
    nextKey first (0x7D :: more) = .ok (.close, 0x7D :: more) := by
  rw [nextKey, skipGaps_cons (by decide)]
  rfl

theorem nextKey_first (more : Bytes) : nextKey true (0x22 :: more) = .ok (.item, more) := by
  rw [nextKey, skipGaps_cons (by decide)]
  rfl

theorem nextKey_comma (more : Bytes) :
    nextKey false (0x2C :: 0x22 :: more) = .ok (.item, more) := by
  rw [nextKey, skipGaps_cons (by decide)]
  simp [skipGaps_cons (show isGap 0x22 = false by decide)]

theorem readFields_number {σ : Type} (field : σ → Text → Read σ) (fuel : Nat) {b : UInt8}
    (hb : isNumberByte b = true) (s : σ) (more : Bytes) :
    ∃ e, readFields field fuel false s (b :: more) = .error e := by
  cases fuel with
  | zero => exact ⟨_, rfl⟩
  | succ fuel =>
    have hcomma : b ≠ 0x2C := ne_of_isNumberByte hb (by decide)
    have hclose : b ≠ 0x7D := ne_of_isNumberByte hb (by decide)
    have hnext : ∃ e, nextKey false (b :: more) = .error e := by
      rw [nextKey, skipGaps_cons (isGap_of_isNumberByte hb)]
      simp [hcomma, haltAfter]
    obtain ⟨e, he⟩ := hnext
    rw [readFields, he]
    exact ⟨e, rfl⟩

/-- How a reader treats fields, from one state to the next: a field whose value is written after a
colon is read as `step` says. -/
def ReadsField {σ : Type} (field : σ → Text → Read σ) (step : σ → Text × Json → Option σ)
    (p : Text × Json) : Prop :=
  ∀ s more, Delimited more → Reads (field s p.1 (0x3A :: (encode p.2 ++ more))) (step s p) more

section Fields

variable {σ : Type} {field : σ → Text → Read σ} {step : σ → Text × Json → Option σ}

/-- One field and those after it: they are read if it is read, and then the rest of the object. -/
theorem readFields_item {fuel : Nat} {first : Bool} {s : σ} {p : Text × Json}
    {fields : List (Text × Json)} {bs rest : Bytes}
    (hnext : nextKey first bs = .ok (.item, fieldBytes p ++ laterFields fields rest))
    (hp : ReadsField field step p)
    (hfields : ∀ s', ReadsOrHalts (readFields field fuel false s' (laterFields fields rest))
      (fields.foldlM step s') (0x7D :: rest)) :
    ReadsOrHalts (readFields field (fuel + 1) first s bs) ((p :: fields).foldlM step s)
      (0x7D :: rest) := by
  have hkey : readText (fieldBytes p ++ laterFields fields rest) =
      .ok (p.1, 0x3A :: (encode p.2 ++ laterFields fields rest)) := by
    rw [fieldBytes, List.append_assoc]
    exact readText_write p.1 _
  have hstep : readFields field (fuel + 1) first s bs =
      field s p.1 (0x3A :: (encode p.2 ++ laterFields fields rest)) >>= fun q =>
        readFields field fuel false q.1 q.2 := by
    rw [readFields, hnext]
    simp only [bind, Except.bind, hkey]
  have hread := hp s _ (delimited_laterFields fields rest)
  rw [hstep, List.foldlM_cons]
  cases hs : step s p with
  | none =>
    rw [hs] at hread
    exact exists_error_of_spoiled hread fun a b more hb => readFields_number field fuel hb a more
  | some s' =>
    rw [hs] at hread
    have hread' : field s p.1 (0x3A :: (encode p.2 ++ laterFields fields rest)) =
        .ok (s', laterFields fields rest) := hread
    rw [hread']
    exact hfields s'

theorem readFields_later {fields : List (Text × Json)} {rest : Bytes}
    (hfields : ∀ p ∈ fields, ReadsField field step p) {fuel : Nat} (hfuel : fields.length < fuel)
    (s : σ) :
    ReadsOrHalts (readFields field fuel false s (laterFields fields rest)) (fields.foldlM step s)
      (0x7D :: rest) := by
  induction fields generalizing fuel s with
  | nil =>
    obtain ⟨fuel, rfl⟩ : ∃ n, fuel = n + 1 := ⟨fuel - 1, by omega⟩
    show readFields field (fuel + 1) false s (0x7D :: rest) = .ok (s, 0x7D :: rest)
    rw [readFields, nextKey_close]
    rfl
  | cons p fields ih =>
    obtain ⟨fuel, rfl⟩ : ∃ n, fuel = n + 1 := ⟨fuel - 1, by simp at hfuel; omega⟩
    refine readFields_item ?_ (hfields p (by simp))
      (ih (fun q hq => hfields q (by simp [hq])) (by simpa using hfuel))
    rw [laterFields, List.flatMap_cons, List.append_assoc, List.cons_append, List.cons_append]
    exact nextKey_comma _

/-- The fields of an object are read one after another. -/
theorem readFields_write {fields : List (Text × Json)}
    (hfields : ∀ p ∈ fields, ReadsField field step p) {fuel : Nat} (hfuel : fields.length < fuel)
    (s : σ) (rest : Bytes) :
    ReadsOrHalts (readFields field fuel true s (fieldsText fields rest)) (fields.foldlM step s)
      (0x7D :: rest) := by
  obtain ⟨fuel, rfl⟩ : ∃ n, fuel = n + 1 := ⟨fuel - 1, by omega⟩
  cases fields with
  | nil =>
    show readFields field (fuel + 1) true s (0x7D :: rest) = .ok (s, 0x7D :: rest)
    rw [readFields, nextKey_close]
    rfl
  | cons p fields =>
    refine readFields_item ?_ (hfields p (by simp))
      (readFields_later (fun q hq => hfields q (by simp [hq])) (by simpa using hfuel))
    rw [fieldsText_cons]
    exact nextKey_first _

end Fields

/-! ## Values -/

theorem encode_array (items : List Json) (rest : Bytes) :
    encode (.array items) ++ rest = 0x5B :: itemsText items rest := by
  rw [encode, write, Utf8.encode_append, Utf8.encode_cons, itemsText, List.append_assoc]
  rfl

theorem encode_object (fields : List (Text × Json)) (rest : Bytes) :
    encode (.object fields) ++ rest = 0x7B :: fieldsText fields rest := by
  rw [encode, write, Utf8.encode_append, Utf8.encode_cons, fieldsText, List.append_assoc]
  rfl

theorem encode_text (t : Text) (rest : Bytes) :
    encode (.text t) ++ rest = 0x22 :: (Utf8.encode (t.flatMap writeChar) ++ 0x22 :: rest) := by
  rw [encode, write, writeText, Utf8.encode_append, Utf8.encode_cons, List.append_assoc]
  rfl

theorem length_le_flatMap {α β : Type} {f : α → List β} (hf : ∀ a, f a ≠ []) (as : List α) :
    as.length ≤ (as.flatMap f).length := by
  induction as with
  | nil => exact Nat.le_refl 0
  | cons a as ih =>
    have hone := List.length_pos_iff.2 (hf a)
    rw [List.flatMap_cons, List.length_cons, List.length_append]
    omega

/-- There are more bytes than items, so that the reader does not run out of steps. -/
theorem length_lt_itemsText (items : List Json) (rest : Bytes) :
    items.length < (itemsText items rest).length := by
  cases items with
  | nil => simp [itemsText]
  | cons v vs =>
    obtain ⟨b, more, he, -, -⟩ := exists_head v
    have hlater : vs.length ≤ (vs.flatMap fun v => 0x2C :: encode v).length :=
      length_le_flatMap (fun _ => List.cons_ne_nil _ _) vs
    rw [itemsText_cons, he, laterItems]
    simp only [List.length_cons, List.length_append]
    omega

theorem length_lt_fieldsText (fields : List (Text × Json)) (rest : Bytes) :
    fields.length < (fieldsText fields rest).length := by
  cases fields with
  | nil => simp [fieldsText]
  | cons p fs =>
    have hlater : fs.length ≤ (fs.flatMap fun p => 0x2C :: 0x22 :: fieldBytes p).length :=
      length_le_flatMap (fun _ => List.cons_ne_nil _ _) fs
    rw [fieldsText_cons, laterFields]
    simp only [List.length_cons, List.length_append]
    omega

/-- How the fields of a value that is not a message are read. -/
def plainField (d : Nat) (fields : List (Text × Json)) (key : Text) :
    Read (List (Text × Json)) := fun bs => do
  let rest ← readColon bs
  let (v, rest) ← readAt d rest
  return ((key, v) :: fields, rest)

theorem readColon_cons (more : Bytes) : readColon (0x3A :: more) = .ok more := by
  rw [readColon, skipGaps_cons (by decide)]
  rfl

theorem plainField_colon (d : Nat) (fields : List (Text × Json)) (key : Text) (bs : Bytes) :
    plainField d fields key (0x3A :: bs) =
      (readAt d bs).map fun p => ((key, p.1) :: fields, p.2) := by
  rw [plainField, readColon_cons]
  rfl

theorem readAt_array (d : Nat) (bs : Bytes) :
    readAt (d + 2) (0x5B :: bs) =
      readItems (readAt (d + 1)) (bs.length + 1) true bs >>= fun p =>
        (closeList p.2).map fun rest => (.array p.1, rest) := by
  rw [readAt, skipGaps_cons (by decide)]
  rfl

theorem readAt_object (d : Nat) (bs : Bytes) :
    readAt (d + 2) (0x7B :: bs) =
      readFields (plainField (d + 1)) (bs.length + 1) true [] bs >>= fun p =>
        (closeObject p.2).map fun rest => (.object p.1.reverse, rest) := by
  rw [readAt, skipGaps_cons (by decide)]
  rfl

theorem closeList_cons (more : Bytes) : closeList (0x5D :: more) = .ok more := by
  rw [closeList, skipGaps_cons (by decide)]
  rfl

theorem closeObject_cons (more : Bytes) : closeObject (0x7D :: more) = .ok more := by
  rw [closeObject, skipGaps_cons (by decide)]
  rfl

theorem readAt_word {v : Json} (h : v = .null ∨ ∃ b, v = .bool b) (d : Nat) (rest : Bytes) :
    readAt (d + 1) (encode v ++ rest) = .ok (v, rest) := by
  rcases h with rfl | ⟨b, rfl⟩
  · rfl
  · cases b <;> rfl

theorem readAt_text (t : Text) (d : Nat) (rest : Bytes) :
    readAt (d + 1) (encode (.text t) ++ rest) = .ok (.text t, rest) := by
  have hread := readText_write t rest
  rw [encode_text, readAt, skipGaps_cons (by decide)]
  simp only [hread]
  rfl

/-- A list is read back when each of its items is, one place further down. -/
theorem reads_array {d : Nat} {items : List Json} {rest : Bytes}
    (hitems : ∀ v ∈ items, ∀ more, Delimited more →
      Reads (readAt (d + 1) (encode v ++ more)) (rereadAt (d + 1) v) more) :
    Reads (readAt (d + 2) (0x5B :: itemsText items rest)) (rereadAt (d + 2) (.array items)) rest := by
  have hread := readItems_write hitems (Nat.lt_succ_of_lt (length_lt_itemsText items rest)) rest
  have he : rereadAt (d + 2) (.array items) = (items.mapM (rereadAt (d + 1))).map .array := by
    rw [mapM_rereadAt, rereadAt, depth, reread]
    split_ifs <;> first | rfl | omega
  have hclose : ∀ ws, (closeList (0x5D :: rest)).map (fun left => (Json.array ws, left)) =
      .ok (.array ws, rest) := by
    intro ws
    rw [closeList_cons]
    rfl
  rw [he, readAt_array]
  exact .of_halts (hread.bind hclose)

/-- An object is read back when the value of each of its fields is, one place further down. -/
theorem reads_object {d : Nat} {fields : List (Text × Json)} {rest : Bytes}
    (hfields : ∀ p ∈ fields, ∀ more, Delimited more →
      Reads (readAt (d + 1) (encode p.2 ++ more)) (rereadAt (d + 1) p.2) more) :
    Reads (readAt (d + 2) (0x7B :: fieldsText fields rest)) (rereadAt (d + 2) (.object fields))
      rest := by
  have hfield : ∀ p ∈ fields, ReadsField (plainField (d + 1)) (stepField (d + 1)) p := by
    intro p hp s more hmore
    rw [plainField_colon]
    exact (hfields p hp more hmore).map _
  have hread := readFields_write hfield
    (Nat.lt_succ_of_lt (length_lt_fieldsText fields rest)) [] rest
  have he : rereadAt (d + 2) (.object fields) =
      (fields.foldlM (stepField (d + 1)) []).map fun fs => .object fs.reverse := by
    rw [foldlM_stepField, rereadAt, depth, reread, Option.map_map]
    split_ifs with h1 h2 h2
    · refine congrArg (Option.map · _) (funext fun fs => ?_)
      simp
    · omega
    · omega
    · rfl
  have hclose : ∀ fs : List (Text × Json),
      (closeObject (0x7D :: rest)).map (fun left => (Json.object fs.reverse, left)) =
        .ok (.object fs.reverse, rest) := by
    intro fs
    rw [closeObject_cons]
    rfl
  rw [he, readAt_object]
  exact .of_halts (hread.bind hclose)

/-- A value is read back, whatever follows it, as `reread` says and if it is not nested too deeply
for its place; otherwise it spoils the document. -/
theorem readAt_write (v : Json) : ∀ (d : Nat) (rest : Bytes), Delimited rest →
    Reads (readAt d (encode v ++ rest)) (rereadAt d v) rest := by
  induction v using Json.induction with
  | null =>
    intro d rest _
    cases d with
    | zero => exact spoiled_error _
    | succ d => exact readAt_word (Or.inl rfl) d rest
  | bool b =>
    intro d rest _
    cases d with
    | zero => exact spoiled_error _
    | succ d => exact readAt_word (Or.inr ⟨b, rfl⟩) d rest
  | number n =>
    intro d rest hrest
    cases d with
    | zero => exact spoiled_error _
    | succ d =>
      have h := readAt_number hrest n d
      have hdepth : depth (.number n) = 0 := by simp [depth]
      have he : rereadAt (d + 1) (.number n) = n.reread.map .number := by
        rw [rereadAt, hdepth, if_pos (by omega), reread]
      rw [he]
      cases hn : n.reread with
      | none =>
        rw [hn] at h
        exact h
      | some m =>
        rw [hn] at h
        exact h
  | text t =>
    intro d rest _
    cases d with
    | zero => exact spoiled_error _
    | succ d => exact readAt_text t d rest
  | array items ih =>
    intro d rest _
    rw [encode_array]
    -- a list needs room for itself and for what is in it
    match d with
    | 0 => exact spoiled_error _
    | 1 => exact spoiled_error _
    | d + 2 => exact reads_array fun v hv => ih v hv (d + 1)
  | object fields ih =>
    intro d rest _
    rw [encode_object]
    match d with
    | 0 => exact spoiled_error _
    | 1 => exact spoiled_error _
    | d + 2 => exact reads_object fun p hp => ih p hp (d + 1)

end ClusterConsole.Json
