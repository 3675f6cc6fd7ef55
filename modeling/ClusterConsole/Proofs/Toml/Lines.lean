/-
Lines of a document are read back as the statements that they were written for: a key with a value
on its line (`says_pair`), and the headers of tables and of entries in lists of tables
(`says_table`, `says_item`). A line is a line of statements, so it may hold line ends of its own,
inside quotes and inside the brackets of an array.
-/
import ClusterConsole.Proofs.Text.Lines
import ClusterConsole.Proofs.Toml.Quoted
import ClusterConsole.Toml.Reader
import ClusterConsole.Toml.Writer

namespace ClusterConsole.Toml

/-! ## Where keys and values begin -/

/-- Whether a part of a key, a text or a truth value may begin with `c`. -/
def isOpening (c : Char) : Bool := c == '"' || c == '\'' || isBare c

theorem ne_of_isOpening {c d : Char} (h : isOpening c = true) (hd : isOpening d = false) :
    c ≠ d := by
  rintro rfl
  rw [h] at hd
  cases hd

theorem isGap_of_isOpening {c : Char} (h : isOpening c = true) : isGap c = false := by
  have hspace : c ≠ ' ' := ne_of_isOpening h (by decide)
  have htab : c ≠ '\t' := ne_of_isOpening h (by decide)
  simp [isGap, hspace, htab]

theorem skipGaps_cons {c : Char} (h : isGap c = false) (t : Text) : skipGaps (c :: t) = c :: t := by
  rw [skipGaps, List.dropWhile_cons_of_neg (by simp [h])]

theorem skipFill_cons {c : Char} (hgap : isGap c = false) (hreturn : c ≠ '\r') (hline : c ≠ '\n')
    (hmark : c ≠ '#') (t : Text) : skipFill false (c :: t) = c :: t := by
  rw [skipFill]
  · simp [hgap, hline, hmark]
  · simp [hreturn]

theorem skipFill_of_isOpening {c : Char} (h : isOpening c = true) (t : Text) :
    skipFill false (c :: t) = c :: t :=
  skipFill_cons (isGap_of_isOpening h) (ne_of_isOpening h (by decide))
    (ne_of_isOpening h (by decide)) (ne_of_isOpening h (by decide)) t

/-- What is read as long as `p` holds reaches up to the first character for which it does not. -/
theorem span_append {p : Char → Bool} {t rest : Text} (ht : ∀ c ∈ t, p c = true)
    (hrest : ∀ c ∈ rest.head?, p c = false) :
    (t ++ rest).takeWhile p = t ∧ (t ++ rest).dropWhile p = rest := by
  rw [List.takeWhile_append_of_pos ht, List.dropWhile_append_of_pos ht]
  cases rest with
  | nil => simp
  | cons c rest =>
    have hc : p c = false := hrest c rfl
    simp [hc]

/-! ## Keys -/

theorem isOpening_of_isBare {c : Char} (h : isBare c = true) : isOpening c = true := by
  simp [isOpening, h]

theorem exists_writePart (key : Text) :
    ∃ c t, writePart key = c :: t ∧ isOpening c = true := by
  unfold writePart
  split_ifs with hbare hliteral
  · cases key with
    | nil => simp at hbare
    | cons c t =>
      simp only [List.all_cons, Bool.and_eq_true] at hbare
      exact ⟨c, t, rfl, isOpening_of_isBare hbare.2.1⟩
  · exact ⟨'\'', _, rfl, by decide⟩
  · exact ⟨'"', _, rfl, by decide⟩

theorem skipGaps_writePart (key rest : Text) :
    skipGaps (writePart key ++ rest) = writePart key ++ rest := by
  obtain ⟨c, t, hwrite, hc⟩ := exists_writePart key
  rw [hwrite, List.cons_append, skipGaps_cons (isGap_of_isOpening hc)]

theorem readPart_writePart (key : Text) {rest : Text} (h : ∀ c ∈ rest.head?, isBare c = false) :
    readPart (writePart key ++ rest) = some (key, rest) := by
  unfold writePart
  split_ifs with hbare hliteral
  · simp only [Bool.and_eq_true, List.all_eq_true] at hbare
    obtain ⟨htake, hdrop⟩ := span_append hbare.2 h
    cases key with
    | nil => simp at hbare
    | cons c t =>
      rw [List.cons_append] at htake hdrop ⊢
      rw [readPart, htake, hdrop, if_neg (List.cons_ne_nil c t)]
      · rintro _ ⟨⟩
        exact absurd (hbare.2 _ List.mem_cons_self) (by decide)
      · rintro _ ⟨⟩
        exact absurd (hbare.2 _ List.mem_cons_self) (by decide)
  · have hplain : ∀ c ∈ key, isPlain c = true ∧ c ≠ '\'' := by
      simpa using (Bool.and_eq_true_iff.1 hliteral).1
    rw [List.cons_append, List.cons_append, List.append_assoc, List.singleton_append, readPart,
      readLiteral_append hplain]
  · rw [List.cons_append, List.cons_append, List.append_assoc, List.singleton_append, readPart,
      readBasic_writeBasic]

theorem return_not_mem_writePart (key : Text) : '\r' ∉ writePart key := by
  unfold writePart
  split_ifs with hbare hliteral
  · intro hmem
    simp only [Bool.and_eq_true, List.all_eq_true] at hbare
    exact absurd (hbare.2 _ hmem) (by decide)
  · have hplain : ∀ c ∈ key, isPlain c = true ∧ c ≠ '\'' := by
      simpa using (Bool.and_eq_true_iff.1 hliteral).1
    simpa using return_not_mem_of_plain fun c hc => .inl (hplain c hc).1
  · simpa using return_not_mem_writeBasic false 0 0 key

theorem writeKey_singleton (key : Text) : writeKey [key] = writePart key := by
  simp [writeKey, Text.join]

theorem writeKey_cons_cons (p q : Text) (parts : List Text) :
    writeKey (p :: q :: parts) = writePart p ++ '.' :: writeKey (q :: parts) := by
  simp [writeKey, Text.join, List.intercalate_cons_cons]

theorem exists_writeKey {parts : List Text} (h : parts ≠ []) :
    ∃ c t, writeKey parts = c :: t ∧ isOpening c = true := by
  match parts with
  | [] => exact absurd rfl h
  | [p] => exact writeKey_singleton p ▸ exists_writePart p
  | p :: q :: parts =>
    obtain ⟨c, t, hwrite, hc⟩ := exists_writePart p
    exact ⟨c, _, by rw [writeKey_cons_cons, hwrite]; rfl, hc⟩

theorem length_le_writeKey (parts : List Text) : parts.length ≤ (writeKey parts).length + 1 := by
  match parts with
  | [] => simp
  | [p] => simp
  | p :: q :: parts =>
    obtain ⟨c, t, hwrite, -⟩ := exists_writePart p
    have ih := length_le_writeKey (q :: parts)
    rw [writeKey_cons_cons, hwrite]
    simp only [List.length_cons, List.length_append] at ih ⊢
    omega

theorem readParts_writeKey {parts : List Text} (hparts : parts ≠ []) {rest : Text}
    (hbare : ∀ c ∈ rest.head?, isBare c = false) (hpoint : (skipGaps rest).head? ≠ some '.')
    {fuel : Nat} (hfuel : parts.length ≤ fuel) :
    readParts fuel (writeKey parts ++ rest) = some (parts, skipGaps rest) := by
  match fuel, parts with
  | _, [] => exact absurd rfl hparts
  | 0, p :: parts => simp at hfuel
  | fuel + 1, [p] =>
    rw [writeKey_singleton, readParts, skipGaps_writePart, readPart_writePart p hbare]
    simp only [Option.bind_eq_bind, Option.bind_some]
    split
    · rename_i heq
      rw [heq] at hpoint
      exact absurd rfl hpoint
    · rfl
  | fuel + 1, p :: q :: parts =>
    have hpoint' : isGap '.' = false := by decide
    have hfuel : (q :: parts).length ≤ fuel := Nat.le_of_succ_le_succ hfuel
    have ih := readParts_writeKey (List.cons_ne_nil q parts) hbare hpoint hfuel
    rw [writeKey_cons_cons, List.append_assoc, List.cons_append, readParts, skipGaps_writePart,
      readPart_writePart p (by simp; decide)]
    simp only [Option.bind_eq_bind, Option.bind_some, skipGaps_cons hpoint', ih]
    rfl

theorem return_not_mem_writeKey (parts : List Text) : '\r' ∉ writeKey parts := by
  match parts with
  | [] => simp [writeKey, Text.join]
  | [p] => exact writeKey_singleton p ▸ return_not_mem_writePart p
  | p :: q :: parts =>
    rw [writeKey_cons_cons]
    simpa using ⟨return_not_mem_writePart p, return_not_mem_writeKey (q :: parts)⟩

/-- A key is read back, with its last part told from those in front of it. -/
theorem readKey_writeKey {path : List Text} (hpath : path.length + 1 < depthLimit) (key : Text)
    {rest : Text} (hbare : ∀ c ∈ rest.head?, isBare c = false)
    (hpoint : (skipGaps rest).head? ≠ some '.') :
    readKey (writeKey (path ++ [key]) ++ rest) = some ((path, key), skipGaps rest) := by
  have hfuel : (path ++ [key]).length ≤ (writeKey (path ++ [key]) ++ rest).length + 1 := by
    refine le_trans (length_le_writeKey (path ++ [key])) ?_
    simp
  rw [readKey, readParts_writeKey (by simp) hbare hpoint hfuel]
  simp [hpath]

/-! ## Texts and truth values -/

/-- Whether a value is a text or a truth value. -/
def isAtom : Toml → Bool
  | .text _ => true
  | .boolean _ => true
  | _ => false

/-- What follows a value: the end of the line, a comma or the end of an array. -/
def Ended (rest : Text) : Prop := ∀ c ∈ rest.head?, c = '\n' ∨ c = ',' ∨ c = ']'

theorem ended_comma (t : Text) : Ended (',' :: t) := by simp [Ended]

theorem ended_bracket (t : Text) : Ended (']' :: t) := by simp [Ended]

theorem Ended.unquoted {rest : Text} (h : Ended rest) : Unquoted rest := by
  intro c hc
  rcases h c hc with rfl | rfl | rfl <;> decide

theorem exists_writeAtom {v : Toml} (h : isAtom v = true) :
    ∃ c t, writeValue v = c :: t ∧ isOpening c = true := by
  cases v with
  | text t =>
    obtain ⟨q, body, hwrite, hq⟩ := exists_writeQuoted t
    refine ⟨q, body, hwrite, ?_⟩
    rcases hq with rfl | rfl <;> decide
  | boolean b => cases b <;> exact ⟨_, _, rfl, by decide⟩
  | _ => cases h

theorem return_not_mem_writeAtom {v : Toml} (h : isAtom v = true) : '\r' ∉ writeValue v := by
  cases v with
  | text t => exact return_not_mem_writeQuoted t
  | boolean b => cases b <;> simp [writeValue]
  | _ => cases h

theorem readScalar_append {spelling rest : Text}
    (hspelling : ∀ c ∈ spelling, (!endsSpelling c) = true) (hdate : isDate spelling = false) (hrest : Ended rest) :
    readScalar (spelling ++ rest) = (scalar? spelling).map (·, rest) := by
  have hends : ∀ c ∈ rest.head?, (!endsSpelling c) = false := by
    intro c hc
    rcases hrest c hc with rfl | rfl | rfl <;> decide
  obtain ⟨htake, hdrop⟩ := span_append hspelling hends
  simp [readScalar, cutSpelling, htake, hdrop, continuesDate, hdate]

theorem readValue_cons {c : Char} (h : isOpening c = true) (d : Nat) (t : Text) :
    readValue (d + 1) (c :: t) = if c = '"' ∨ c = '\'' then
      (readQuoted (c :: t)).map fun r => (.text r.1, r.2) else readScalar (c :: t) := by
  have hbracket : c ≠ '[' := ne_of_isOpening h (by decide)
  have hbrace : c ≠ '\x7b' := ne_of_isOpening h (by decide)
  rw [readValue]
  · exact hbracket
  · exact hbrace

theorem readValue_atom (d : Nat) {v : Toml} (h : isAtom v = true) {rest : Text}
    (hrest : Ended rest) : readValue (d + 1) (writeValue v ++ rest) = some (v, rest) := by
  cases v with
  | text t =>
    obtain ⟨q, body, hwrite, hq⟩ := exists_writeQuoted t
    have hopening : isOpening q = true := by
      rcases hq with rfl | rfl <;> decide
    rw [writeValue, hwrite, List.cons_append, readValue_cons hopening, if_pos hq,
      ← List.cons_append, ← hwrite, readQuoted_writeQuoted t hrest.unquoted]
    rfl
  | boolean b =>
    have htrue : "true".toList.all (fun c => !endsSpelling c) = true := by decide
    have hfalse : "false".toList.all (fun c => !endsSpelling c) = true := by decide
    cases b with
    | true =>
      have hread := readScalar_append (List.all_eq_true.1 htrue) (by decide) hrest
      exact (readValue_cons (by decide) d _).trans ((if_neg (by decide)).trans hread)
    | false =>
      have hread := readScalar_append (List.all_eq_true.1 hfalse) (by decide) hrest
      exact (readValue_cons (by decide) d _).trans ((if_neg (by decide)).trans hread)
  | _ => cases h

/-! ## Arrays -/

/-- Whether a value is a text, a truth value, or an array of such. -/
def isInline : Toml → Bool
  | .array items => items.all isAtom
  | v => isAtom v

theorem writeValues_eq_map (items : List Toml) : writeValues items = items.map writeValue := by
  induction items with
  | nil => rfl
  | cons v items ih => rw [writeValues, ih, List.map_cons]

theorem skipFill_comma (t : Text) : skipFill false (',' :: t) = ',' :: t :=
  skipFill_cons (by decide) (by decide) (by decide) (by decide) t

theorem skipFill_bracket (t : Text) : skipFill false (']' :: t) = ']' :: t :=
  skipFill_cons (by decide) (by decide) (by decide) (by decide) t

theorem skipFill_line (t : Text) : skipFill false ('\n' :: t) = skipFill false t := by
  rw [skipFill]
  · rfl
  · simp

theorem skipFill_indent (t : Text) : skipFill false ("\n    ".toList ++ t) = skipFill false t := by
  simp [skipFill, isGap]

theorem readItems_close (value : ValueReader) (fuel : Nat) {t rest : Text}
    (ht : skipFill false t = ']' :: rest) : readItems value (fuel + 1) t = some ([], rest) := by
  rw [readItems, ht]
  rfl

/-- An item with a comma is read, and then those after it. -/
theorem readItems_comma (d fuel : Nat) {v : Toml} (h : isAtom v = true) {t rest : Text}
    (ht : skipFill false t = skipFill false (writeValue v ++ ',' :: rest)) :
    readItems (readValue (d + 1)) (fuel + 1) t =
      (readItems (readValue (d + 1)) fuel rest).map fun r => (v :: r.1, r.2) := by
  obtain ⟨c, u, hwrite, hc⟩ := exists_writeAtom h
  have hvalue := readValue_atom d h (ended_comma rest)
  rw [hwrite, List.cons_append] at ht hvalue
  rw [skipFill_of_isOpening hc] at ht
  have hbracket : c ≠ ']' := ne_of_isOpening hc (by decide)
  rw [readItems, ht]
  simp [hbracket, hvalue, skipFill_comma, Option.map_eq_bind]

/-- The last item may stand in front of the bracket without a comma. -/
theorem readItems_last (d fuel : Nat) {v : Toml} (h : isAtom v = true) (rest : Text) :
    readItems (readValue (d + 1)) (fuel + 1) (writeValue v ++ ']' :: rest) = some ([v], rest) := by
  obtain ⟨c, u, hwrite, hc⟩ := exists_writeAtom h
  have hvalue := readValue_atom d h (ended_bracket rest)
  rw [hwrite, List.cons_append] at hvalue ⊢
  have hbracket : c ≠ ']' := ne_of_isOpening hc (by decide)
  rw [readItems, skipFill_of_isOpening hc]
  simp [hbracket, hvalue, skipFill_bracket]

/-- The items between the brackets where each has a line of its own. -/
def itemLines (items : List Toml) : Text :=
  (items.map writeValue).flatMap fun item => "\n    ".toList ++ item ++ [',']

theorem itemLines_cons (v : Toml) (items : List Toml) (rest : Text) :
    itemLines (v :: items) ++ rest =
      "\n    ".toList ++ (writeValue v ++ ',' :: (itemLines items ++ rest)) := by
  simp [itemLines]

theorem readItems_lines (d : Nat) {items : List Toml} (h : ∀ v ∈ items, isAtom v = true)
    (rest : Text) {fuel : Nat} (hfuel : items.length ≤ fuel) :
    readItems (readValue (d + 1)) (fuel + 1) (itemLines items ++ '\n' :: ']' :: rest) =
      some (items, rest) := by
  induction items generalizing fuel with
  | nil =>
    have hskip : skipFill false (itemLines [] ++ '\n' :: ']' :: rest) = ']' :: rest :=
      (skipFill_line _).trans (skipFill_bracket rest)
    exact readItems_close _ fuel hskip
  | cons v items ih =>
    obtain ⟨hv, hitems⟩ := List.forall_mem_cons.1 h
    obtain ⟨fuel, rfl⟩ := Nat.exists_eq_add_of_le' hfuel
    rw [itemLines_cons, readItems_comma d _ hv (skipFill_indent _), List.length_cons,
      ← Nat.add_assoc, ih hitems (Nat.le_add_left _ _)]
    rfl

theorem length_le_itemLines (items : List Toml) : items.length ≤ (itemLines items).length := by
  induction items with
  | nil => exact Nat.zero_le _
  | cons v items ih =>
    have hcons := congrArg List.length (itemLines_cons v items [])
    simp only [List.append_nil, List.length_append, List.length_cons] at hcons ⊢
    omega

/-- A value on the line of its key does not begin with a gap. -/
theorem skipGaps_inline {v : Toml} (h : isInline v = true) (rest : Text) :
    skipGaps (' ' :: (writeValue v ++ rest)) = writeValue v ++ rest := by
  have hhead : ∃ c t, writeValue v = c :: t ∧ isGap c = false := by
    match v with
    | .array items =>
      rw [writeValue]
      unfold writeArray
      split <;> exact ⟨'[', _, rfl, by decide⟩
    | .text t =>
      obtain ⟨c, u, hwrite, hc⟩ := exists_writeAtom (v := .text t) rfl
      exact ⟨c, u, hwrite, isGap_of_isOpening hc⟩
    | .boolean b =>
      obtain ⟨c, u, hwrite, hc⟩ := exists_writeAtom (v := .boolean b) rfl
      exact ⟨c, u, hwrite, isGap_of_isOpening hc⟩
  obtain ⟨c, t, hwrite, hgap⟩ := hhead
  rw [hwrite, skipGaps, List.dropWhile_cons_of_pos (by decide)]
  exact skipGaps_cons hgap (t ++ rest)

theorem return_not_mem_inline {v : Toml} (h : isInline v = true) : '\r' ∉ writeValue v := by
  match v with
  | .array items =>
    have hitems : ∀ v ∈ items, '\r' ∉ writeValue v := fun v hv =>
      return_not_mem_writeAtom (List.all_eq_true.1 h v hv)
    rw [writeValue, writeValues_eq_map]
    match items with
    | [] => simp [writeArray]
    | [v] => simpa [writeArray] using hitems v
    | v :: w :: items => simpa [writeArray] using hitems
  | .text t => exact return_not_mem_writeAtom (v := .text t) rfl
  | .boolean b => exact return_not_mem_writeAtom (v := .boolean b) rfl

theorem readValue_array {d : Nat} {t : Text} {items : List Toml} {rest : Text}
    (h : readItems (readValue (d + 1)) (t.length + 1) t = some (items, rest)) :
    readValue (d + 2) ('[' :: t) = some (.array items, rest) := by
  rw [readValue]
  simp [guard, h]

/-- A value on the line of its key is read back. -/
theorem readValue_inline (d : Nat) {v : Toml} (h : isInline v = true) {rest : Text}
    (hrest : Ended rest) : readValue (d + 2) (writeValue v ++ rest) = some (v, rest) := by
  match v with
  | .array items =>
    have hitems : ∀ v ∈ items, isAtom v = true := by simpa [isInline] using h
    rw [writeValue, writeValues_eq_map]
    match items with
    | [] => exact readValue_array (readItems_close _ _ (skipFill_bracket rest))
    | [v] =>
      have hv : isAtom v = true := hitems v List.mem_cons_self
      have hwrite : writeArray ([v].map writeValue) ++ rest =
          '[' :: (writeValue v ++ ']' :: rest) := by simp [writeArray]
      rw [hwrite]
      exact readValue_array (readItems_last d _ hv rest)
    | v :: w :: items =>
      have hwrite : writeArray ((v :: w :: items).map writeValue) ++ rest =
          '[' :: (itemLines (v :: w :: items) ++ '\n' :: ']' :: rest) := by
        simp [writeArray, itemLines]
      have hfuel : (v :: w :: items).length ≤
          (itemLines (v :: w :: items) ++ '\n' :: ']' :: rest).length := by
        rw [List.length_append]
        exact Nat.le_add_right_of_le (length_le_itemLines _)
      rw [hwrite]
      exact readValue_array (readItems_lines d hitems rest hfuel)
  | .text t => exact readValue_atom (d + 1) (v := .text t) rfl hrest
  | .boolean b => exact readValue_atom (d + 1) (v := .boolean b) rfl hrest

/-! ## Statements -/

/-- A line is read as a statement, whatever lines follow. -/
structure Says (line : Text) (st : Statement) : Prop where
  opens : ∃ c t, line = c :: t ∧ isGap c = false ∧ c.toNat ≠ 0xFEFF
  clean : '\r' ∉ line
  reads : ∀ rest, (∀ c ∈ rest.head?, c = '\n') →
    readStatement (line ++ rest) = some (some st, rest.tail)

theorem readTrailing_eq_tail {rest : Text} (h : ∀ c ∈ rest.head?, c = '\n') :
    readTrailing rest = some rest.tail := by
  cases rest with
  | nil => rfl
  | cons c rest =>
    obtain rfl : c = '\n' := h c rfl
    rfl

theorem toNat_ne_of_isOpening {c : Char} (h : isOpening c = true) : c.toNat ≠ 0xFEFF := by
  intro hc
  have hmark : c = Char.ofNat 0xFEFF := by rw [← hc, Char.ofNat_toNat]
  exact ne_of_isOpening h (by decide) hmark

/-- The line of a key and its value. -/
theorem says_pair (key : Text) {v : Toml} (h : isInline v = true) :
    Says (writePart key ++ " = " ++ writeValue v) (.pair [] key v) := by
  obtain ⟨c, t, hwrite, hc⟩ := exists_writePart key
  constructor
  · exact ⟨c, t ++ " = ".toList ++ writeValue v, by rw [hwrite]; rfl, isGap_of_isOpening hc,
      toNat_ne_of_isOpening hc⟩
  · simpa using ⟨return_not_mem_writePart key, return_not_mem_inline h⟩
  · intro rest hrest
    have hended : Ended rest := fun c hc => .inl (hrest c hc)
    have hkey : readKey (writeKey ([] ++ [key]) ++ ' ' :: '=' :: ' ' :: (writeValue v ++ rest)) =
        some (([], key), '=' :: ' ' :: (writeValue v ++ rest)) :=
      readKey_writeKey (by decide) key (by simp; decide) (by simp [skipGaps, isGap])
    have hline : (writePart key ++ " = " ++ writeValue v : Text) ++ rest =
        writeKey ([] ++ [key]) ++ ' ' :: '=' :: ' ' :: (writeValue v ++ rest) := by
      simp [writeKey_singleton]
    have hvalue : skipGaps (' ' :: (writeValue v ++ rest)) = writeValue v ++ rest :=
      skipGaps_inline h rest
    have hpair : readPair (readValue depthLimit)
        (writeKey ([] ++ [key]) ++ ' ' :: '=' :: ' ' :: (writeValue v ++ rest)) =
          some (([], key, v), rest) := by
      rw [readPair, hkey]
      simp [hvalue, readValue_inline 78 h hended, depthLimit]
    have hbracket : c ≠ '[' := ne_of_isOpening hc (by decide)
    have hmark : ¬ (c = '#' ∨ c = '\n' ∨ c = '\r') := by
      rintro (rfl | rfl | rfl) <;> exact absurd hc (by decide)
    rw [hline]
    rw [List.nil_append, writeKey_singleton, hwrite, List.cons_append] at hpair ⊢
    rw [readStatement]
    · rw [if_neg hmark, hpair]
      simp [readTrailing_eq_tail hrest]
    all_goals simp [hbracket]

theorem says_table {path : List Text} (hpath : path.length + 1 < depthLimit) (key : Text) :
    Says ("[" ++ writeKey (path ++ [key]) ++ "]") (.table path key) := by
  have hparts : path ++ [key] ≠ [] := by simp
  obtain ⟨c, t, hwrite, hc⟩ := exists_writeKey hparts
  constructor
  · exact ⟨'[', _, rfl, by decide, by decide⟩
  · simpa using return_not_mem_writeKey (path ++ [key])
  · intro rest hrest
    have hkey : readKey (writeKey (path ++ [key]) ++ ']' :: rest) =
        some ((path, key), ']' :: rest) :=
      readKey_writeKey hpath key (by simp; decide) (by simp [skipGaps, isGap])
    have hline : ("[" ++ writeKey (path ++ [key]) ++ "]" : Text) ++ rest =
        '[' :: (writeKey (path ++ [key]) ++ ']' :: rest) := by simp
    have hbracket : c ≠ '[' := ne_of_isOpening hc (by decide)
    rw [hline, hwrite, List.cons_append] at *
    rw [readStatement, hkey]
    · simp [readTrailing_eq_tail hrest]
    · simp [hbracket]

theorem says_item {path : List Text} (hpath : path.length + 1 < depthLimit) (key : Text) :
    Says ("[[" ++ writeKey (path ++ [key]) ++ "]]") (.item path key) := by
  constructor
  · exact ⟨'[', _, rfl, by decide, by decide⟩
  · simpa using return_not_mem_writeKey (path ++ [key])
  · intro rest hrest
    have hkey : readKey (writeKey (path ++ [key]) ++ ']' :: ']' :: rest) =
        some ((path, key), ']' :: ']' :: rest) :=
      readKey_writeKey hpath key (by simp; decide) (by simp [skipGaps, isGap])
    have hline : ("[[" ++ writeKey (path ++ [key]) ++ "]]" : Text) ++ rest =
        '[' :: '[' :: (writeKey (path ++ [key]) ++ ']' :: ']' :: rest) := by simp
    rw [hline, readStatement, hkey]
    simp [readTrailing_eq_tail hrest]

/-! ## Lines one after another -/

/-- Lines say statements one after another; empty lines say nothing. -/
inductive SayAll : List Text → List Statement → Prop
  | nil : SayAll [] []
  | blank {lines statements} : SayAll lines statements → SayAll ([] :: lines) statements
  | cons {line st lines statements} : Says line st → SayAll lines statements →
      SayAll (line :: lines) (st :: statements)

theorem SayAll.append {lines lines' : List Text} {sts sts' : List Statement} (h : SayAll lines sts)
    (h' : SayAll lines' sts') : SayAll (lines ++ lines') (sts ++ sts') := by
  induction h with
  | nil => exact h'
  | blank _ ih => exact .blank ih
  | cons hsaid _ ih => exact .cons hsaid ih

theorem readStatements_step {t rest : Text} {st : Option Statement} (hskip : skipGaps t = t)
    (h : readStatement t = some (st, rest)) (fuel : Nat) :
    readStatements (fuel + 1) t = (readStatements fuel rest).map (st.toList ++ ·) := by
  cases t with
  | nil => cases h
  | cons c t =>
    rw [readStatements, hskip]
    simp [h, Option.map_eq_bind]

/-- Lines are read as the statements that they say. -/
theorem readStatements_join {lines : List Text} {sts : List Statement} (h : SayAll lines sts)
    {fuel : Nat} (hfuel : (Text.join "\n" lines).length < fuel) :
    readStatements fuel (Text.join "\n" lines) = some sts := by
  induction h generalizing fuel with
  | nil =>
    obtain ⟨fuel, rfl⟩ := Nat.exists_eq_add_of_lt hfuel
    rfl
  | @blank lines sts hrest ih =>
    rw [Text.join_cons_eq, List.nil_append] at hfuel ⊢
    by_cases hlines : lines = []
    · subst hlines
      exact ih hfuel
    · have hafter : Text.after lines = '\n' :: Text.join "\n" lines := if_neg hlines
      obtain ⟨fuel, rfl⟩ := Nat.exists_eq_add_of_lt hfuel
      rw [hafter] at hfuel ⊢
      have hread : readStatement ('\n' :: Text.join "\n" lines) =
          some (none, Text.join "\n" lines) := rfl
      rw [readStatements_step (skipGaps_cons (by decide) _) hread, ih (by simp; omega)]
      rfl
  | @cons line st lines sts hsaid hrest ih =>
    obtain ⟨c, t, rfl, hgap, -⟩ := hsaid.opens
    have hread := hsaid.reads (Text.after lines) (Text.head?_after lines)
    rw [Text.join_cons_eq] at hfuel ⊢
    have hlength : (Text.join "\n" lines).length ≤ (Text.after lines).length := by
      rw [← Text.tail_after, List.length_tail]
      exact Nat.sub_le _ 1
    obtain ⟨fuel, rfl⟩ := Nat.exists_eq_add_of_lt hfuel
    rw [List.cons_append] at hread hfuel ⊢
    rw [readStatements_step (skipGaps_cons hgap _) hread, Text.tail_after,
      ih (by simp only [List.length_cons, List.length_append] at hfuel ⊢; omega)]
    rfl

/-- A document of lines is read as the statements that they say. -/
theorem statements_join {lines : List Text} {sts : List Statement} (h : SayAll lines sts) :
    statements (Text.join "\n" lines) = some sts := by
  have hmark : dropMark (Text.join "\n" lines) = Text.join "\n" lines := by
    cases h with
    | nil => rfl
    | @blank lines =>
      rw [Text.join_cons_eq, List.nil_append]
      unfold Text.after
      split_ifs <;> rfl
    | cons hsaid =>
      obtain ⟨c, t, rfl, -, hc⟩ := hsaid.opens
      rw [Text.join_cons_eq, List.cons_append, dropMark, if_neg hc]
  rw [statements, hmark]
  exact readStatements_join h (Nat.lt_succ_self _)

theorem SayAll.clean {lines : List Text} {sts : List Statement} (h : SayAll lines sts) :
    '\r' ∉ Text.join "\n" lines := by
  have hafter : ∀ {lines}, '\r' ∉ Text.join "\n" lines → '\r' ∉ Text.after lines := by
    intro lines h
    unfold Text.after
    split_ifs
    · simp
    · simpa using h
  induction h with
  | nil => simp [Text.join]
  | blank _ ih =>
    rw [Text.join_cons_eq]
    exact hafter ih
  | cons hsaid _ ih =>
    rw [Text.join_cons_eq]
    simpa using ⟨hsaid.clean, hafter ih⟩

/-- A document that was cut into lines and put together again is read as before. -/
theorem statements_join_lines {lines : List Text} {sts : List Statement} (h : SayAll lines sts) :
    statements (Text.join "\n" (Text.lines (Text.join "\n" (lines ++ [[]])))) = some sts := by
  by_cases hlines : lines = []
  · subst hlines
    exact statements_join h
  · have hjoin := Text.join_lines h.clean
    rw [Text.join_append_blank hlines]
    exact (congrArg statements hjoin).trans (statements_join h)

end ClusterConsole.Toml
