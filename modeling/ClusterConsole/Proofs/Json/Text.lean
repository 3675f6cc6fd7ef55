/-
Texts on the wire: what is written between quotes is read back as it was (`readText_write`),
whatever characters it holds and whatever follows the closing quote. Each character is read in a
few steps (`readTextBytes_writeChar`), and steps to spare do no harm (`readTextBytes_mono`).
-/
import ClusterConsole.Json.Reader
import ClusterConsole.Proofs.Except
import ClusterConsole.Proofs.Text.Utf8

namespace ClusterConsole.Json

/-! ## Steps to spare -/

theorem readTextBytes_mono {fuel : Nat} {bs : Bytes} {r : Bytes × Bytes}
    (h : readTextBytes fuel bs = .ok r) {more : Nat} (hm : fuel ≤ more) :
    readTextBytes more bs = .ok r := by
  induction fuel generalizing bs r more with
  | zero => cases h
  | succ fuel ih =>
    obtain ⟨more, rfl⟩ : ∃ n, more = n + 1 := ⟨more - 1, by omega⟩
    have hle : fuel ≤ more := by omega
    cases bs with
    | nil => cases h
    | cons b bs =>
      unfold readTextBytes at h ⊢
      split_ifs at h ⊢ with hquote hslash hcontrol
      · exact h
      · obtain ⟨p, hp, h⟩ := bind_eq_ok.1 h
        obtain ⟨p', hp', h⟩ := bind_eq_ok.1 h
        exact bind_eq_ok.2 ⟨p, hp, bind_eq_ok.2 ⟨p', ih hp' hle, h⟩⟩
      · cases h
      · obtain ⟨p', hp', h⟩ := bind_eq_ok.1 h
        exact bind_eq_ok.2 ⟨p', ih hp' hle, h⟩

/-! ## Characters -/

/-- A byte that stands for itself inside quotes. -/
def isPlainByte (b : UInt8) : Bool := b != 0x22 && b != 0x5C && 0x20 ≤ b

/-- Bytes that stand for themselves are read one by one. -/
theorem readTextBytes_plain {bs : Bytes} (hbs : ∀ b ∈ bs, isPlainByte b = true) {fuel : Nat}
    {rest bytes left : Bytes} (h : readTextBytes fuel rest = .ok (bytes, left)) :
    readTextBytes (fuel + bs.length) (bs ++ rest) = .ok (bs ++ bytes, left) := by
  induction bs with
  | nil => exact h
  | cons b bs ih =>
    have hb := hbs b (by simp)
    simp only [isPlainByte, Bool.and_eq_true, bne_iff_ne, decide_eq_true_eq] at hb
    have hrest := ih fun b' hb' => hbs b' (by simp [hb'])
    rw [List.length_cons, ← Nat.add_assoc, List.cons_append, readTextBytes, if_neg hb.1.1,
      if_neg hb.1.2, if_neg (by simpa using hb.2), hrest]
    rfl

/-- An escape is read in one step. -/
theorem readTextBytes_escape {code rest bytes left part : Bytes} {fuel : Nat}
    (hcode : readEscape (code ++ rest) = .ok (part, rest))
    (h : readTextBytes fuel rest = .ok (bytes, left)) :
    readTextBytes (fuel + 1) (0x5C :: (code ++ rest)) = .ok (part ++ bytes, left) := by
  rw [readTextBytes, if_neg (by decide), if_pos rfl]
  exact bind_eq_ok.2 ⟨_, hcode, bind_eq_ok.2 ⟨_, h, rfl⟩⟩

theorem isPlainByte_of_mem_encodeChar {c : Char} (hquote : c ≠ '"') (hslash : c ≠ '\\')
    (hcontrol : 0x20 ≤ c.toNat) {b : UInt8} (hb : b ∈ String.utf8EncodeChar c) :
    isPlainByte b = true := by
  simp only [isPlainByte, Bool.and_eq_true, bne_iff_ne, decide_eq_true_eq]
  by_cases hc : c.toNat < 0x80
  · rw [Utf8.encodeChar_ascii hc, List.mem_singleton] at hb
    have hval : b.toNat = c.toNat := by
      rw [hb]
      exact Utf8.toNat_ofNat_of_lt (by omega)
    refine ⟨⟨?_, ?_⟩, ?_⟩
    · rintro rfl
      exact hquote (Char.toNat_inj.1 hval.symm)
    · rintro rfl
      exact hslash (Char.toNat_inj.1 hval.symm)
    · rw [UInt8.le_iff_toNat_le, hval]
      exact hcontrol
  · have hle := UInt8.le_iff_toNat_le.1 (Utf8.le_of_mem_encodeChar (by omega) hb)
    have h80 : (0x80 : UInt8).toNat = 0x80 := rfl
    rw [h80] at hle
    refine ⟨⟨?_, ?_⟩, ?_⟩
    · rintro rfl
      exact absurd hle (by decide)
    · rintro rfl
      exact absurd hle (by decide)
    · rw [UInt8.le_iff_toNat_le]
      exact le_trans (by decide) hle

theorem hexDigit_bounds : ∀ n < 16, (hexDigit n).toNat < 0x80 ∧
    hexValue? (UInt8.ofNat (hexDigit n).toNat) = some n := by
  decide

/-- The code of a control character is read as that character. -/
theorem readEscape_control {c : Char} (hc : c.toNat < 0x20) (rest : Bytes) :
    readEscape ([0x75, 0x30, 0x30, UInt8.ofNat (hexDigit (c.toNat / 16)).toNat,
      UInt8.ofNat (hexDigit (c.toNat % 16)).toNat] ++ rest) =
      .ok (String.utf8EncodeChar c, rest) := by
  have hhigh := (hexDigit_bounds (c.toNat / 16) (by omega)).2
  have hlow := (hexDigit_bounds (c.toNat % 16) (by omega)).2
  have hzero : hexValue? 0x30 = some 0 := rfl
  have hn : ((0 * 16 + 0) * 16 + c.toNat / 16) * 16 + c.toNat % 16 = c.toNat := by omega
  have hhex : readHex (0x30 :: 0x30 :: UInt8.ofNat (hexDigit (c.toNat / 16)).toNat ::
      UInt8.ofNat (hexDigit (c.toNat % 16)).toNat :: rest) = .ok (c.toNat, rest) := by
    rw [readHex]
    simp only [hhigh, hlow, hzero, hn]
  have hchar : Char.ofNat c.toNat = c := Char.ofNat_toNat c
  simp only [List.cons_append, List.nil_append, readEscape]
  rw [hhex]
  simp only [bind, Except.bind]
  rw [if_neg (by omega), if_pos (by omega), codeBytes, hchar]
  rfl

/-- A character is read as it was written, in no more steps than it has bytes. -/
theorem readTextBytes_writeChar (c : Char) {fuel : Nat} {rest bytes left : Bytes}
    (h : readTextBytes fuel rest = .ok (bytes, left)) :
    readTextBytes (fuel + (Utf8.encode (writeChar c)).length) (Utf8.encode (writeChar c) ++ rest) =
      .ok (String.utf8EncodeChar c ++ bytes, left) := by
  have hescape : ∀ code : Bytes, Utf8.encode (writeChar c) = 0x5C :: code →
      readEscape (code ++ rest) = .ok (String.utf8EncodeChar c, rest) →
      readTextBytes (fuel + (Utf8.encode (writeChar c)).length)
        (Utf8.encode (writeChar c) ++ rest) = .ok (String.utf8EncodeChar c ++ bytes, left) := by
    intro code hcode hread
    rw [hcode]
    refine readTextBytes_mono (readTextBytes_escape hread h) ?_
    simp only [List.length_cons]
    omega
  -- seven characters have an escape of two bytes
  by_cases hquote : c = '"'
  · subst hquote
    exact hescape [0x22] rfl rfl
  by_cases hslash : c = '\\'
  · subst hslash
    exact hescape [0x5C] rfl rfl
  by_cases hback : c = '\x08'
  · subst hback
    exact hescape [0x62] rfl rfl
  by_cases hfeed : c = '\x0c'
  · subst hfeed
    exact hescape [0x66] rfl rfl
  by_cases hline : c = '\n'
  · subst hline
    exact hescape [0x6E] rfl rfl
  by_cases hreturn : c = '\r'
  · subst hreturn
    exact hescape [0x72] rfl rfl
  by_cases htab : c = '\t'
  · subst htab
    exact hescape [0x74] rfl rfl
  -- the other control characters are written by their code, and all that is left as it is
  by_cases hcontrol : c.toNat < 0x20
  · refine hescape _ ?_ (readEscape_control hcontrol rest)
    have hhigh := (hexDigit_bounds (c.toNat / 16) (by omega)).1
    have hlow := (hexDigit_bounds (c.toNat % 16) (by omega)).1
    simp only [writeChar, hquote, hslash, hback, hfeed, hline, hreturn, htab, hcontrol, if_true,
      if_false, Utf8.encode_cons, Utf8.encode_nil]
    rw [Utf8.encodeChar_ascii hhigh, Utf8.encodeChar_ascii hlow]
    rfl
  · have hw : writeChar c = [c] := by
      simp only [writeChar, hquote, hslash, hback, hfeed, hline, hreturn, htab, hcontrol, if_false]
    have hbytes : Utf8.encode (writeChar c) = String.utf8EncodeChar c := by
      rw [hw, Utf8.encode_cons, Utf8.encode_nil, List.append_nil]
    rw [hbytes]
    exact readTextBytes_plain
      (fun b hb => isPlainByte_of_mem_encodeChar hquote hslash (by omega) hb) h

/-! ## Texts -/

theorem readTextBytes_write (t : Text) (rest : Bytes) :
    readTextBytes ((Utf8.encode (t.flatMap writeChar)).length + 1)
      (Utf8.encode (t.flatMap writeChar) ++ 0x22 :: rest) = .ok (Utf8.encode t, rest) := by
  induction t with
  | nil => rfl
  | cons c t ih =>
    rw [List.flatMap_cons, Utf8.encode_append, List.append_assoc, Utf8.encode_cons]
    refine readTextBytes_mono (readTextBytes_writeChar c ih) ?_
    rw [List.length_append]
    omega

/-- What is written between quotes is read back as it was. -/
theorem readText_write (t : Text) (rest : Bytes) :
    readText (Utf8.encode (t.flatMap writeChar) ++ 0x22 :: rest) = .ok (t, rest) := by
  have hle : (Utf8.encode (t.flatMap writeChar)).length + 1 ≤
      (Utf8.encode (t.flatMap writeChar) ++ 0x22 :: rest).length + 1 := by
    rw [List.length_append]
    omega
  rw [readText]
  refine bind_eq_ok.2 ⟨_, readTextBytes_mono (readTextBytes_write t rest) hle, ?_⟩
  simp only [Utf8.decode_encode]
  rfl

end ClusterConsole.Json
