/-
The scan of a line, by equations. What it reads does not depend on where it stands in the line
(`scan_from`). Without quotes and backslashes the tokens of a line are its words (`tokenize_words`).
-/
import ClusterConsole.Token.Lexer
import ClusterConsole.Proofs.Except
import ClusterConsole.Proofs.Text.Blank
import ClusterConsole.Proofs.Text.Numeral
import ClusterConsole.Proofs.Text.Utf8

namespace ClusterConsole.Token

open Text

/-! ## Equations of the scan -/

section Equations

variable {q : Option Char} {c : Char} {n : Nat} {rest : Text}

theorem scan_escape (hx : c ≠ 'x') (hc : isEscapable c = true) :
    scan q n ('\\' :: c :: rest) =
      (scan q (n + 2) rest).map (Scan.push (String.utf8EncodeChar c)) := by
  rw [scan]
  · exact if_pos hc
  · exact hx

theorem scan_hex {h l : Char} {high low : Nat} (hh : hexDigit? h = some high)
    (hl : hexDigit? l = some low) :
    scan q n ('\\' :: 'x' :: h :: l :: rest) =
      (scan q (n + 4) rest).map (Scan.push [UInt8.ofNat (high * 16 + low)]) := by
  conv_lhs => rw [scan.eq_def]
  simp only [hh, hl]

theorem scan_open (hc : isQuote c = true) :
    scan none n (c :: rest) = (scan (some c) (n + 1) rest).map fun s => ([], s.quoted) := by
  rw [scan]
  · exact if_pos hc
  · rintro rfl
    exact absurd hc (by decide)

theorem isQuote_of_isBlank (hc : isBlank c = true) : isQuote c = false := by
  by_contra h
  rw [Bool.not_eq_false, isQuote, Bool.or_eq_true, beq_iff_eq, beq_iff_eq] at h
  rcases h with rfl | rfl <;> exact absurd hc (by decide)

theorem ne_backslash_of_isBlank (hc : isBlank c = true) : c ≠ '\\' := by
  rintro rfl
  exact absurd hc (by decide)

theorem scan_blank (hc : isBlank c = true) :
    scan none n (c :: rest) = (scan none (n + 1) rest).map fun s => ([], s.bare) := by
  rw [scan]
  · rw [if_neg (by simp [isQuote_of_isBlank hc]), if_pos hc]
  · exact ne_backslash_of_isBlank hc

/-- A character that neither blanks nor quotes nor a backslash are. -/
def isPlain (c : Char) : Bool := !(isQuote c || isBlank c || c == '\\')

theorem scan_plain (hc : isPlain c = true) :
    scan none n (c :: rest) =
      (scan none (n + 1) rest).map (Scan.push (String.utf8EncodeChar c)) := by
  simp only [isPlain, Bool.not_eq_true', Bool.or_eq_false_iff, beq_eq_false_iff_ne] at hc
  obtain ⟨⟨hq, hb⟩, hs⟩ := hc
  rw [scan]
  · rw [if_neg (by simp [hq]), if_neg (by simp [hb])]
  · exact hs

theorem scan_close (hc : c ≠ '\\') :
    scan (some c) n (c :: rest) = (scan none (n + 1) rest).map fun s => ([], s.bare) := by
  rw [scan]
  · exact if_pos rfl
  · exact hc

theorem scan_inside {d : Char} (hd : d ≠ c) (hs : d ≠ '\\') :
    scan (some c) n (d :: rest) =
      (scan (some c) (n + 1) rest).map (Scan.push (String.utf8EncodeChar d)) := by
  rw [scan]
  · exact if_neg hd
  · exact hs

end Equations

/-- What a scan reads does not depend on the number of characters before it; only the offset of an
error does. -/
theorem scan_from {q : Option Char} {n : Nat} {t : Text} {s : Scan} (h : scan q n t = .ok s)
    (m : Nat) : scan q m t = .ok s := by
  -- along the scan; a branch that halts is excluded by `h`, any other is one of the equations above
  fun_induction scan q n t generalizing m s with
  | case1 => rw [scan]; exact h
  | case2 | case3 | case4 | case5 | case6 | case7 | case10 => cases h
  | case8 q n c high d rest hc low hd ih =>
    obtain ⟨s, hs, rfl⟩ := map_eq_ok.1 h
    rw [scan_hex hc hd, ih hs]
    rfl
  | case9 q n c rest hx hc ih =>
    obtain ⟨s, hs, rfl⟩ := map_eq_ok.1 h
    rw [scan_escape hx hc, ih hs]
    rfl
  | case11 n c rest hs hc ih =>
    obtain ⟨s, hs, rfl⟩ := map_eq_ok.1 h
    rw [scan_open hc, ih hs]
    rfl
  | case12 n c rest hs hq hc ih =>
    obtain ⟨s, hs, rfl⟩ := map_eq_ok.1 h
    rw [scan_blank hc, ih hs]
    rfl
  | case13 n c rest hc hq hb ih =>
    obtain ⟨s, hs, rfl⟩ := map_eq_ok.1 h
    have hp : isPlain c = true := by simpa [isPlain, hq, hb] using hc
    rw [scan_plain hp, ih hs]
    rfl
  | case14 n c rest hc ih =>
    obtain ⟨s, hs, rfl⟩ := map_eq_ok.1 h
    rw [scan_close hc, ih hs]
    rfl
  | case15 q n c rest hc hq ih =>
    obtain ⟨s, hs, rfl⟩ := map_eq_ok.1 h
    rw [scan_inside hq hc, ih hs]
    rfl

/-! ## Words -/

theorem bare_encode (w : Text) (ws : List Text) :
    Scan.bare (Utf8.encode w, ws) = consWord w ws := by
  unfold Scan.bare consWord Scan.quoted
  simp only [Utf8.encode_eq_nil_iff, Utf8.decodeLossy_encode]

theorem scan_words {t : Text} (h : ∀ c ∈ t, c ≠ '\'' ∧ c ≠ '"' ∧ c ≠ '\\') (n : Nat) :
    scan none n t = .ok (Utf8.encode (wordsFrom t).1, (wordsFrom t).2) := by
  induction t generalizing n with
  | nil =>
    rw [scan]
    rfl
  | cons c t ih =>
    obtain ⟨⟨hquote, hdouble, hslash⟩, ht⟩ := List.forall_mem_cons.1 h
    by_cases hc : isBlank c = true
    · rw [scan_blank hc, ih ht, wordsFrom_blank hc]
      show Except.ok ([], Scan.bare _) = _
      rw [bare_encode, words_eq]
      rfl
    · have hplain : isPlain c = true := by simp [isPlain, isQuote, hquote, hdouble, hslash, hc]
      rw [scan_plain hplain, ih ht, wordsFrom_cons hc]
      rfl

/-- A line without quotes and backslashes is cut into its words. -/
theorem tokenize_words {t : Text} (h : ∀ c ∈ t, c ≠ '\'' ∧ c ≠ '"' ∧ c ≠ '\\') :
    tokenize t = .ok t.words := by
  rw [tokenize, scan_words h, words_eq, ← bare_encode]
  rfl

theorem isPlain_of_isDigit {c : Char} (h : c.isDigit = true) : isPlain c = true := by
  have hne : ∀ d : Char, d.isDigit = false → (c == d) = false := by
    intro d hd
    rw [beq_eq_false_iff_ne]
    rintro rfl
    rw [h] at hd
    cases hd
  rw [isPlain, isQuote, hne _ rfl, hne _ rfl, hne _ rfl, isBlank_of_isDigit h]
  rfl

/-- A word of plain characters is the one token of its line. -/
theorem tokenize_plain {w : Text} (hne : w ≠ []) (h : ∀ c ∈ w, isPlain c = true) :
    tokenize w = .ok [w] := by
  have hplain : ∀ c ∈ w, isBlank c = false ∧ c ≠ '\'' ∧ c ≠ '"' ∧ c ≠ '\\' := by
    intro c hc
    have hpc := h c hc
    simp only [isPlain, isQuote, Bool.not_eq_true', Bool.or_eq_false_iff, beq_eq_false_iff_ne] at hpc
    exact ⟨hpc.1.2, hpc.1.1.1, hpc.1.1.2, hpc.2⟩
  rw [tokenize_words fun c hc => (hplain c hc).2, words_singleton hne fun c hc => (hplain c hc).1]

end ClusterConsole.Token
