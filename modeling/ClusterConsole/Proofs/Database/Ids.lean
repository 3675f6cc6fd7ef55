/-
How lists of ids are read (`ids_read`). A list is cut at its commas, and each piece, unless only blanks
stand there, is to be a numeral of 64 bits between blanks (`parseId_eq_some_iff`): all pieces are read,
in order, or the first that is no such numeral is reported.

Numbers in decimal, with blanks around them and with empty pieces between them, are read back
(`parseIds_join`).
-/
import ClusterConsole.Database.Request
import ClusterConsole.Proofs.Except
import ClusterConsole.Proofs.Text.Blank
import ClusterConsole.Proofs.Text.Lines
import ClusterConsole.Proofs.Text.Numeral

namespace ClusterConsole

namespace Database

/-! ## Numerals -/

/-- Digits, at least one. -/
def Digits (t : Text) : Prop := t ≠ [] ∧ ∀ c ∈ t, c.isDigit = true

/-- A decimal numeral, perhaps with a plus sign in front, and its value. -/
inductive Numeral : Text → Nat → Prop
  | plain {ds : Text} : Digits ds → Numeral ds (Nat.ofDigitChars 10 ds 0)
  | signed {ds : Text} : Digits ds → Numeral ('+' :: ds) (Nat.ofDigitChars 10 ds 0)

/-- A text less a plus sign in front. -/
def unsigned : Text → Text
  | '+' :: ds => ds
  | ds => ds

variable {t : Text} {n : Nat} {id : UInt64}

theorem unsigned_of_digits (h : Digits t) : unsigned t = t := by
  unfold unsigned
  split
  · exact absurd (h.2 '+' List.mem_cons_self) (by decide)
  · rfl

theorem numeral_iff : Numeral t n ↔ Digits (unsigned t) ∧ Nat.ofDigitChars 10 (unsigned t) 0 = n := by
  constructor
  · rintro (h | h)
    · rw [unsigned_of_digits h]
      exact ⟨h, rfl⟩
    · exact ⟨h, rfl⟩
  · rintro ⟨h, rfl⟩
    revert h
    unfold unsigned
    split
    · exact .signed
    · exact .plain

theorem numeral_ofNat (n : Nat) : Numeral (Text.ofNat n) n := by
  have h : Digits (Text.ofNat n) := ⟨Text.ofNat_ne_nil n, fun _ => Text.isDigit_of_mem_ofNat⟩
  have hvalue : Nat.ofDigitChars 10 (Text.ofNat n) 0 = n := Nat.ofDigitChars_ten_toDigits
  rw [numeral_iff, unsigned_of_digits h]
  exact ⟨h, hvalue⟩

instance : Decidable (Digits t) := inferInstanceAs (Decidable (_ ∧ _))

theorem parseId_eq (t : Text) : parseId t =
    if Digits (unsigned t) ∧ Nat.ofDigitChars 10 (unsigned t) 0 < UInt64.size then
      some (UInt64.ofNat (Nat.ofDigitChars 10 (unsigned t) 0))
    else none := by
  have hopen : parseId t =
      if unsigned t = [] ∨ (unsigned t).any (!Char.isDigit ·) then none
      else
        let n := (unsigned t).foldl (fun n c => n * 10 + (c.toNat - '0'.toNat)) 0
        if n < UInt64.size then some (UInt64.ofNat n) else none := by
    unfold parseId unsigned
    rfl
  have hfold : (unsigned t).foldl (fun n c => n * 10 + (c.toNat - '0'.toNat)) 0 =
      Nat.ofDigitChars 10 (unsigned t) 0 := by
    simp [Nat.ofDigitChars_eq_foldl, Nat.mul_comm]
  have hdigits : (unsigned t = [] ∨ (unsigned t).any (!Char.isDigit ·) = true) ↔
      ¬ Digits (unsigned t) := by
    simp [Digits, imp_iff_not_or]
  rw [hopen, hfold]
  by_cases h : Digits (unsigned t)
  · rw [if_neg (by rwa [hdigits, not_not])]
    simp only [h, true_and]
  · rw [if_pos (hdigits.2 h), if_neg fun hand => h hand.1]

/-- Ids are read from the numerals of their values, however many zeros these begin with. -/
theorem parseId_eq_some_iff : parseId t = some id ↔ Numeral t id.toNat := by
  rw [parseId_eq, numeral_iff]
  split_ifs with h
  · rw [Option.some.injEq, ← UInt64.toNat_inj, UInt64.toNat_ofNat_of_lt' h.2]
    simp [h.1]
  · simp only [false_iff]
    rintro ⟨hdigits, hvalue⟩
    exact h ⟨hdigits, hvalue ▸ id.toNat_lt_size⟩

/-- No numeral from 2 ^ 64 on is the numeral of an id. -/
theorem exists_parseId_iff : (∃ id, parseId t = some id) ↔ ∃ n < 2 ^ 64, Numeral t n := by
  simp only [parseId_eq_some_iff]
  constructor
  · rintro ⟨id, h⟩
    exact ⟨id.toNat, id.toNat_lt, h⟩
  · rintro ⟨n, hn, h⟩
    refine ⟨UInt64.ofNat n, ?_⟩
    rwa [UInt64.toNat_ofNat_of_lt' hn]

/-! ## Lists -/

/-- The id that a piece of a list stands for. -/
def readId (piece : Text) : Except ConsoleError UInt64 :=
  match parseId piece with
  | some id => .ok id
  | none => .error (.handler (.invalidId piece))

theorem parseIds_eq (t : Text) : parseIds t = (idPieces t).mapM readId := rfl

theorem readId_eq_ok_iff : readId t = .ok id ↔ Numeral t id.toNat := by
  rw [← parseId_eq_some_iff, readId]
  cases parseId t <;> simp

theorem exists_readId_iff : (∃ id, readId t = .ok id) ↔ ∃ n < 2 ^ 64, Numeral t n := by
  simp only [readId_eq_ok_iff, ← exists_parseId_iff, parseId_eq_some_iff]

theorem readId_eq_error_iff {e : ConsoleError} : readId t = .error e ↔
    (¬ ∃ n < 2 ^ 64, Numeral t n) ∧ e = .handler (.invalidId t) := by
  rw [← exists_parseId_iff, readId]
  cases parseId t with
  | some id => simp
  | none => simp [eq_comm]

theorem parseIds_eq_ok_iff {ids : List UInt64} : parseIds t = .ok ids ↔
    List.Forall₂ (fun piece id => Numeral piece id.toNat) (idPieces t) ids := by
  rw [parseIds_eq, mapM_eq_ok_iff]
  simp only [readId_eq_ok_iff]

/-! ## Lists as they may be written -/

/-- A piece of a list with its blanks: an id in decimal, or nothing. -/
structure Entry where
  before : Text
  id : Option UInt64
  after : Text
  before_blank : ∀ c ∈ before, Text.isBlank c = true
  after_blank : ∀ c ∈ after, Text.isBlank c = true

namespace Entry

/-- The entry without its blanks. -/
def numeral (e : Entry) : Text :=
  match e.id with
  | some id => Text.ofNat id.toNat
  | none => []

def text (e : Entry) : Text := e.before ++ e.numeral ++ e.after

/-- An id without blanks. -/
def bare (id : UInt64) : Entry := ⟨[], some id, [], by simp, by simp⟩

theorem isDigit_of_mem_numeral {e : Entry} {c : Char} (h : c ∈ e.numeral) : c.isDigit = true := by
  unfold numeral at h
  split at h
  · exact Text.isDigit_of_mem_ofNat h
  · cases h

theorem trim_text (e : Entry) : e.text.trim = e.numeral := by
  rw [text, Text.trim_append_right _ e.after_blank, Text.trim_append_left e.before_blank]
  unfold numeral
  split
  · exact Text.trim_ofNat _
  · rfl

theorem comma_not_mem_text (e : Entry) : ',' ∉ e.text := by
  intro h
  simp only [text, List.mem_append] at h
  rcases h with (h | h) | h
  · exact absurd (e.before_blank _ h) (by decide)
  · exact absurd (isDigit_of_mem_numeral h) (by decide)
  · exact absurd (e.after_blank _ h) (by decide)

theorem filter_numerals (entries : List Entry) :
    (entries.map numeral).filter (!List.isEmpty ·) =
      (entries.filterMap Entry.id).map fun id => Text.ofNat id.toNat := by
  induction entries with
  | nil => rfl
  | cons e entries ih =>
    rw [List.map_cons, List.filter_cons, ih, List.filterMap_cons]
    unfold numeral
    cases e.id with
    | none => rfl
    | some id => simp [Text.ofNat_ne_nil]

end Entry

/-- The pieces of a list as it may be written are the numerals of its ids. -/
theorem idPieces_join (entries : List Entry) :
    idPieces (Text.join "," (entries.map Entry.text)) =
      (entries.filterMap Entry.id).map fun id => Text.ofNat id.toNat := by
  rw [← Entry.filter_numerals]
  cases entries with
  | nil => rfl
  | cons e entries =>
    have hsplit : (Text.join "," ((e :: entries).map Entry.text)).splitOn ',' =
        (e :: entries).map Entry.text := by
      rw [Text.splitOn_eq]
      refine List.splitOn_intercalate ',' ?_ (by simp)
      intro t ht
      obtain ⟨e', -, rfl⟩ := List.mem_map.1 ht
      exact e'.comma_not_mem_text
    rw [idPieces, hsplit, List.map_map]
    exact congrArg _ (List.map_congr_left fun e' _ => e'.trim_text)

theorem parseIds_join (entries : List Entry) :
    parseIds (Text.join "," (entries.map Entry.text)) = .ok (entries.filterMap Entry.id) := by
  rw [parseIds_eq_ok_iff, idPieces_join, List.forall₂_map_left_iff, List.forall₂_same]
  exact fun id _ => numeral_ofNat id.toNat

/-- Ids in decimal with commas between. -/
def idList (ids : List UInt64) : Text := Text.join "," (ids.map fun id => Text.ofNat id.toNat)

theorem mem_idList {ids : List UInt64} {c : Char} (h : c ∈ idList ids) :
    c = ',' ∨ c.isDigit = true := by
  rcases Text.mem_of_mem_join h with hc | ⟨t, ht, hc⟩
  · exact Or.inl (List.mem_singleton.1 hc)
  · obtain ⟨id, -, rfl⟩ := List.mem_map.1 ht
    exact Or.inr (Text.isDigit_of_mem_ofNat hc)

theorem parseIds_idList (ids : List UInt64) : parseIds (idList ids) = .ok ids := by
  have htext : (ids.map Entry.bare).map Entry.text = ids.map fun id => Text.ofNat id.toNat := by
    simp [Entry.text, Entry.numeral, Entry.bare]
  have h := parseIds_join (ids.map Entry.bare)
  rw [htext, List.filterMap_map] at h
  exact h.trans (congrArg _ (List.filterMap_some))

/-! ## Reading -/

/-- How a list of ids is read, whatever text it is. -/
structure IdsRead (t : Text) : Prop where
  /-- Its pieces are what stands between commas, trimmed, unless nothing is left. -/
  pieces : idPieces t = ((List.splitOn ',' t).map Text.trim).filter (· ≠ [])
  /-- The ids are the values of the pieces, in order. -/
  ok_iff : ∀ ids, parseIds t = .ok ids ↔
    List.Forall₂ (fun piece id => Numeral piece id.toNat) (idPieces t) ids
  /-- There are ids exactly when every piece is a numeral of 64 bits. -/
  exists_iff : (∃ ids, parseIds t = .ok ids) ↔ ∀ piece ∈ idPieces t, ∃ n < 2 ^ 64, Numeral piece n
  /-- The first piece that is no such numeral is reported. -/
  error_iff : ∀ e, parseIds t = .error e ↔ ∃ before piece after,
    idPieces t = before ++ piece :: after ∧ (∀ b ∈ before, ∃ n < 2 ^ 64, Numeral b n) ∧
      (¬ ∃ n < 2 ^ 64, Numeral piece n) ∧ e = .handler (.invalidId piece)

/-- Every list of ids is read so, and numbers in decimal are read back, whatever blanks stand around
them and however many empty pieces between them. -/
theorem ids_read : (∀ t, IdsRead t) ∧ ∀ entries : List Entry,
    parseIds (Text.join "," (entries.map Entry.text)) = .ok (entries.filterMap Entry.id) := by
  refine ⟨fun t => ?_, parseIds_join⟩
  constructor
  · rw [idPieces, Text.splitOn_eq]
    refine List.filter_congr fun piece _ => ?_
    cases piece <;> rfl
  · exact fun ids => parseIds_eq_ok_iff
  · simp only [parseIds_eq, exists_mapM_eq_ok_iff, exists_readId_iff]
  · intro e
    simp only [parseIds_eq, mapM_eq_error_iff, exists_readId_iff, readId_eq_error_iff]

-- a sign and zeros in front make no difference, and repeated ids stay
example : parseIds " 7,, +007 ,8" = .ok [7, 7, 8] := by decide

-- one above the largest id
example : parseIds "1, 18446744073709551616 ,x" =
    .error (.handler (.invalidId "18446744073709551616")) := by decide

end Database

end ClusterConsole
