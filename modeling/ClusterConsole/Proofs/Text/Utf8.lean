/-
UTF-8 loses nothing: the bytes of a text read as its characters (`pieces_encode_append`), so both
`decode` and `decodeLossy` give the text back. What else is needed of the bytes: a character below
U+0080 is one byte, and every byte of another character is at least 0x80.
-/
import ClusterConsole.Text.Utf8
import Mathlib.Tactic

namespace ClusterConsole.Utf8

/-! ## Single characters -/

@[simp] theorem encode_nil : encode [] = [] := rfl

@[simp] theorem encode_cons (c : Char) (t : Text) :
    encode (c :: t) = String.utf8EncodeChar c ++ encode t := rfl

@[simp] theorem encode_append (t u : Text) : encode (t ++ u) = encode t ++ encode u := by
  unfold encode
  rw [List.flatMap_append]

/-- What a lead byte of two bytes announces. -/
theorem first_two {b : Nat} (h1 : 0xC2 ≤ b) (h2 : b < 0xE0) :
    first b = .inr ⟨1, 1, 0x80, 0xBF, b - 0xC0⟩ := by
  unfold first
  rw [if_neg (by omega), if_neg (by omega), if_pos (by omega)]

/-- What a lead byte of three bytes announces. -/
theorem first_three {b : Nat} (h1 : 0xE0 ≤ b) (h2 : b < 0xF0) :
    first b = .inr ⟨2, 1, if b = 0xE0 then 0xA0 else 0x80, if b = 0xED then 0x9F else 0xBF,
      b - 0xE0⟩ := by
  unfold first
  split_ifs <;> first | omega | (subst_vars; rfl)

/-- What a lead byte of four bytes announces. -/
theorem first_four {b : Nat} (h1 : 0xF0 ≤ b) (h2 : b ≤ 0xF4) :
    first b = .inr ⟨3, 1, if b = 0xF0 then 0x90 else 0x80, if b = 0xF4 then 0x8F else 0xBF,
      b - 0xF0⟩ := by
  unfold first
  split_ifs <;> first | omega | (subst_vars; rfl)

/-- A continuation byte that is not the last one. -/
theorem piecesFrom_continue {need seen low high value : Nat} {b : UInt8} {bs : Bytes}
    (hl : low ≤ b.toNat) (hh : b.toNat ≤ high) :
    piecesFrom (some ⟨need + 2, seen, low, high, value⟩) (b :: bs) =
      piecesFrom (some ⟨need + 1, seen + 1, 0x80, 0xBF, value * 64 + (b.toNat - 0x80)⟩) bs := by
  rw [piecesFrom, if_pos ⟨hl, hh⟩, if_neg (by simp)]
  rfl

/-- The last byte of a character. -/
theorem piecesFrom_finish {seen low high value : Nat} {b : UInt8} {bs : Bytes}
    (hl : low ≤ b.toNat) (hh : b.toNat ≤ high) :
    piecesFrom (some ⟨1, seen, low, high, value⟩) (b :: bs) =
      .char (Char.ofNat (value * 64 + (b.toNat - 0x80))) :: piecesFrom none bs := by
  rw [piecesFrom, if_pos ⟨hl, hh⟩, if_pos (by simp)]
  rfl

theorem toNat_ofNat_of_lt {n : Nat} (h : n < 256) : (UInt8.ofNat n).toNat = n := by
  rw [UInt8.toNat_ofNat']
  omega

/-- A code point is no surrogate and at most U+10FFFF. -/
theorem val_bounds (c : Char) :
    c.val.toNat < 0xD800 ∨ 0xDFFF < c.val.toNat ∧ c.val.toNat < 0x110000 := c.valid

theorem ofNat_val (c : Char) : Char.ofNat c.val.toNat = c := Char.ofNat_toNat c

/-- The bytes of a character are read as that character. -/
theorem piecesFrom_encodeChar (c : Char) (bs : Bytes) :
    piecesFrom none (String.utf8EncodeChar c ++ bs) = .char c :: piecesFrom none bs := by
  have hv := val_bounds c
  have hc := ofNat_val c
  unfold String.utf8EncodeChar
  generalize c.val.toNat = v at hv hc
  simp only
  -- one case for each number of bytes: every byte after the first one adds six bits of the code
  -- point, and the values of all of them put it together again
  split_ifs with h1 h2 h3
  · have e : (UInt8.ofNat v).toNat = v := toNat_ofNat_of_lt (by omega)
    rw [List.cons_append, List.nil_append, piecesFrom, e, first, if_pos (by omega), ← hc]
  · have e1 : (UInt8.ofNat (v / 64 % 0x20 + 0xc0)).toNat = v / 64 + 0xC0 := by
      rw [toNat_ofNat_of_lt (by omega)]; omega
    have e2 : (UInt8.ofNat (v % 0x40 + 0x80)).toNat = v % 64 + 0x80 := toNat_ofNat_of_lt (by omega)
    rw [List.cons_append, List.cons_append, List.nil_append, piecesFrom, e1,
      first_two (by omega) (by omega)]
    simp only
    rw [piecesFrom_finish (by omega) (by omega), e2,
      show (v / 64 + 0xC0 - 0xC0) * 64 + (v % 64 + 0x80 - 0x80) = v by omega, hc]
  · have e1 : (UInt8.ofNat (v / 4096 % 0x10 + 0xe0)).toNat = v / 4096 + 0xE0 := by
      rw [toNat_ofNat_of_lt (by omega)]; omega
    have e2 : (UInt8.ofNat (v / 64 % 0x40 + 0x80)).toNat = v / 64 % 64 + 0x80 :=
      toNat_ofNat_of_lt (by omega)
    have e3 : (UInt8.ofNat (v % 0x40 + 0x80)).toNat = v % 64 + 0x80 := toNat_ofNat_of_lt (by omega)
    rw [List.cons_append, List.cons_append, List.cons_append, List.nil_append, piecesFrom, e1,
      first_three (by omega) (by omega)]
    simp only
    rw [piecesFrom_continue (by split_ifs <;> omega) (by split_ifs <;> omega), e2,
      piecesFrom_finish (by omega) (by omega), e3,
      show ((v / 4096 + 0xE0 - 0xE0) * 64 + (v / 64 % 64 + 0x80 - 0x80)) * 64 +
        (v % 64 + 0x80 - 0x80) = v by omega, hc]
  · have e1 : (UInt8.ofNat (v / 262144 % 0x08 + 0xf0)).toNat = v / 262144 + 0xF0 := by
      rw [toNat_ofNat_of_lt (by omega)]; omega
    have e2 : (UInt8.ofNat (v / 4096 % 0x40 + 0x80)).toNat = v / 4096 % 64 + 0x80 :=
      toNat_ofNat_of_lt (by omega)
    have e3 : (UInt8.ofNat (v / 64 % 0x40 + 0x80)).toNat = v / 64 % 64 + 0x80 :=
      toNat_ofNat_of_lt (by omega)
    have e4 : (UInt8.ofNat (v % 0x40 + 0x80)).toNat = v % 64 + 0x80 := toNat_ofNat_of_lt (by omega)
    rw [List.cons_append, List.cons_append, List.cons_append, List.cons_append, List.nil_append,
      piecesFrom, e1, first_four (by omega) (by omega)]
    simp only
    rw [piecesFrom_continue (by split_ifs <;> omega) (by split_ifs <;> omega), e2,
      piecesFrom_continue (by omega) (by omega), e3, piecesFrom_finish (by omega) (by omega), e4,
      show (((v / 262144 + 0xF0 - 0xF0) * 64 + (v / 4096 % 64 + 0x80 - 0x80)) * 64 +
        (v / 64 % 64 + 0x80 - 0x80)) * 64 + (v % 64 + 0x80 - 0x80) = v by omega, hc]

/-! ## Texts -/

/-- The bytes of a text read as its characters, whatever follows them. -/
theorem pieces_encode_append (t : Text) (bs : Bytes) :
    pieces (encode t ++ bs) = t.map .char ++ pieces bs := by
  induction t with
  | nil => rfl
  | cons c t ih =>
    unfold pieces at ih ⊢
    rw [encode_cons, List.append_assoc, piecesFrom_encodeChar, ih]
    rfl

theorem pieces_encode (t : Text) : pieces (encode t) = t.map .char := by
  have h := pieces_encode_append t []
  simpa [pieces, piecesFrom] using h

theorem textOfPieces_chars (valid : Nat) (t : Text) : textOfPieces valid (t.map .char) = .ok t := by
  induction t generalizing valid with
  | nil => rfl
  | cons c t ih => rw [List.map_cons, textOfPieces, ih]; rfl

/-- Reading the bytes of a text gives the text. -/
theorem decode_encode (t : Text) : decode (encode t) = .ok t := by
  unfold decode
  rw [pieces_encode, textOfPieces_chars]

/-- The tolerant reader changes nothing in the bytes of a text. -/
theorem decodeLossy_encode (t : Text) : decodeLossy (encode t) = t := by
  unfold decodeLossy
  rw [pieces_encode, List.map_map]
  exact List.map_id t

/-! ## Bytes -/

theorem encodeChar_ascii {c : Char} (h : c.toNat < 0x80) :
    String.utf8EncodeChar c = [UInt8.ofNat c.toNat] := by
  unfold String.utf8EncodeChar
  rw [if_pos (show c.val.toNat ≤ 0x7f by have : c.toNat = c.val.toNat := rfl; omega)]
  rfl

/-- Every byte of a character beyond ASCII is at least 0x80. -/
theorem le_of_mem_encodeChar {c : Char} (h : 0x80 ≤ c.toNat) {b : UInt8}
    (hb : b ∈ String.utf8EncodeChar c) : 0x80 ≤ b := by
  have hv := val_bounds c
  have e : c.toNat = c.val.toNat := rfl
  rw [UInt8.le_iff_toNat_le]
  unfold String.utf8EncodeChar at hb
  rw [e] at h
  generalize c.val.toNat = v at hv h hb
  simp only at hb
  split_ifs at hb with h1 h2 h3
  · omega
  -- the bytes are at most four remainders with 0xC0, 0xE0, 0xF0 or 0x80 added to them
  all_goals
    simp only [List.mem_cons, List.not_mem_nil, or_false] at hb
    rcases hb with rfl | rfl | rfl | rfl <;> (rw [toNat_ofNat_of_lt (by omega)]; simp)

theorem encode_eq_nil_iff {t : Text} : encode t = [] ↔ t = [] := by
  constructor
  · intro h
    have := decode_encode t
    rw [h] at this
    cases t with
    | nil => rfl
    | cons c t => cases this
  · rintro rfl
    rfl

end ClusterConsole.Utf8
