/-
The grammar of lines, and that cutting a line into tokens accepts exactly what the grammar derives
and gives the tokens that a derivation means (`tokenize_eq_ok_iff`). A derivation is the list of the
blanks and runs of a line, each run with its items; an item is a character or an escape, and means
some bytes. What a scan has read so far is a derivation of the text that is left, less the items of
the run that it is in (`Reads`).
-/
import ClusterConsole.Proofs.Token.Scan

namespace ClusterConsole.Token

open Text

/-! ## Items -/

/-- A part of a run: a character that stands for itself, one behind a backslash, or a byte that is
written with two hexadecimal digits. -/
inductive Item
  | plain (c : Char)
  | escaped (c : Char)
  | byte (high low : Char)
deriving DecidableEq

/-- The hexadecimal digits, each at the place of its value. -/
def hexDigits : Text := "0123456789abcdef"

/-- The value of a hexadecimal digit of either case. -/
def hexValue (c : Char) : Nat := hexDigits.idxOf c.toLower

namespace Item

/-- How an item is written. -/
def text : Item → Text
  | .plain c => [c]
  | .escaped c => ['\\', c]
  | .byte high low => ['\\', 'x', high, low]

/-- The bytes that an item means. -/
def bytes : Item → Bytes
  | .plain c => String.utf8EncodeChar c
  | .escaped c => String.utf8EncodeChar c
  | .byte high low => [UInt8.ofNat (hexValue high * 16 + hexValue low)]

/-- Whether an item may stand between quotes of the kind `q`, or in a bare run. Only what stands for
itself depends on the run. -/
def Fits (q : Option Char) : Item → Prop
  | .plain c => c ≠ '\\' ∧ match q with
    | none => isBlank c = false ∧ c ≠ '\'' ∧ c ≠ '"'
    | some q => c ≠ q
  | .escaped c => c = '\'' ∨ c = '"' ∨ c = '\\' ∨ isBlank c = true
  | .byte high low => high.toLower ∈ hexDigits ∧ low.toLower ∈ hexDigits

end Item

/-- How items are written. -/
def textOf (items : List Item) : Text := items.flatMap Item.text

/-- The bytes that items mean. -/
def bytesOf (items : List Item) : Bytes := items.flatMap Item.bytes

/-! ## Lines -/

/-- A part of a line. -/
inductive Piece
  | blank (c : Char)
  | bare (items : List Item)
  | quoted (q : Char) (items : List Item)
deriving DecidableEq

namespace Piece

/-- How a piece is written. -/
def text : Piece → Text
  | .blank c => [c]
  | .bare items => textOf items
  | .quoted q items => q :: (textOf items ++ [q])

/-- The token that a piece means, if it is a run. -/
def token? : Piece → Option Text
  | .blank _ => none
  | .bare items => some (Utf8.decodeLossy (bytesOf items))
  | .quoted _ items => some (Utf8.decodeLossy (bytesOf items))

/-- A bare run is not empty; one between quotes may be. -/
def Valid : Piece → Prop
  | .blank c => isBlank c = true
  | .bare items => items ≠ [] ∧ ∀ i ∈ items, i.Fits none
  | .quoted q items => (q = '\'' ∨ q = '"') ∧ ∀ i ∈ items, i.Fits (some q)

/-- Whether a piece is a bare run. -/
def isBare : Piece → Bool
  | .bare _ => true
  | _ => false

end Piece

/-- The pieces are a derivation of the line. -/
structure Derives (pieces : List Piece) (t : Text) : Prop where
  valid : ∀ p ∈ pieces, p.Valid
  /-- A bare run is as long as it can be: it does not border on another one. -/
  maximal : pieces.IsChain fun p p' => ¬ (p.isBare = true ∧ p'.isBare = true)
  text : pieces.flatMap Piece.text = t

/-- The tokens that pieces mean, from left to right. -/
def tokensOf (pieces : List Piece) : List Text := pieces.filterMap Piece.token?

/-! ## Characters -/

theorem toNat_lt_of_mem_hexDigits {c : Char} (h : c ∈ hexDigits) : c.toNat < 128 := by
  have hall : hexDigits.all (fun d => decide (d.toNat < 128)) = true := by decide +kernel
  exact of_decide_eq_true (List.all_eq_true.1 hall c h)

/-- A hexadecimal digit is one of the sixteen in either case. -/
theorem hexDigit?_eq (c : Char) :
    hexDigit? c = if c.toLower ∈ hexDigits then some (hexValue c) else none := by
  by_cases hascii : c.toNat < 128
  · have hall : ∀ n < 128, hexDigit? (Char.ofNat n) =
        if (Char.ofNat n).toLower ∈ hexDigits then some (hexValue (Char.ofNat n)) else none := by
      decide +kernel
    have hc := hall c.toNat hascii
    rwa [Char.ofNat_toNat] at hc
  · -- beyond ASCII there is no other case and no digit
    have hle : ∀ d : Char, d.toNat < 128 → ¬ c ≤ d := by
      intro d hd h
      have := UInt32.le_iff_toNat_le.1 (Char.le_def.1 h)
      exact hascii (lt_of_le_of_lt this hd)
    have hlower : c.toLower = c := dif_neg fun h => hle 'Z' (by decide) h.2
    have hnone : hexDigit? c = none := by
      rw [hexDigit?, if_neg, if_neg, if_neg]
      · exact fun h => hle 'F' (by decide) h.2
      · exact fun h => hle 'f' (by decide) h.2
      · exact fun h => hle '9' (by decide) h.2
    rw [hnone, hlower, if_neg fun h => hascii (toNat_lt_of_mem_hexDigits h)]

theorem isEscapable_iff {c : Char} :
    isEscapable c = true ↔ c = '\'' ∨ c = '"' ∨ c = '\\' ∨ isBlank c = true := by
  simp [isEscapable, isQuote, or_assoc]

theorem isQuote_iff {c : Char} : isQuote c = true ↔ c = '\'' ∨ c = '"' := by
  simp [isQuote]

theorem isPlain_iff {c : Char} : isPlain c = true ↔ (Item.plain c).Fits none := by
  simp [isPlain, isQuote, Item.Fits]
  tauto

theorem Item.bytes_ne_nil (i : Item) : i.bytes ≠ [] := by
  cases i <;> simp [bytes]

theorem bytesOf_eq_nil_iff {items : List Item} : bytesOf items = [] ↔ items = [] := by
  cases items with
  | nil => simp [bytesOf]
  | cons i items => simp [bytesOf, i.bytes_ne_nil]

/-! ## A derivation is scanned -/

/-- An item is read as the bytes that it means, whatever follows it. -/
theorem scan_item {q : Option Char} {i : Item} (hi : i.Fits q) {n m : Nat} {t : Text} {s : Scan}
    (h : scan q n t = .ok s) : scan q m (i.text ++ t) = .ok (s.push i.bytes) := by
  cases i with
  | plain c =>
    obtain ⟨hs, hc⟩ := hi
    cases q with
    | none =>
      rw [Item.text, List.singleton_append, scan_plain (isPlain_iff.2 ⟨hs, hc⟩), scan_from h]
      rfl
    | some q =>
      rw [Item.text, List.singleton_append, scan_inside hc hs, scan_from h]
      rfl
  | escaped c =>
    have hx : c ≠ 'x' := by
      rintro rfl
      exact absurd (isEscapable_iff.2 hi) (by decide)
    rw [Item.text, List.cons_append, List.singleton_append, scan_escape hx (isEscapable_iff.2 hi),
      scan_from h]
    rfl
  | byte high low =>
    have hhigh : hexDigit? high = some (hexValue high) := by rw [hexDigit?_eq, if_pos hi.1]
    have hlow : hexDigit? low = some (hexValue low) := by rw [hexDigit?_eq, if_pos hi.2]
    show scan q m ('\\' :: 'x' :: high :: low :: t) = _
    rw [scan_hex hhigh hlow, scan_from h]
    rfl

theorem scan_items {q : Option Char} {items : List Item} (hitems : ∀ i ∈ items, i.Fits q)
    {n m : Nat} {t : Text} {s : Scan} (h : scan q n t = .ok s) :
    scan q m (textOf items ++ t) = .ok (s.push (bytesOf items)) := by
  induction items generalizing m with
  | nil => exact scan_from h m
  | cons i items ih =>
    have hrest := ih (m := m) fun j hj => hitems j (List.mem_cons_of_mem _ hj)
    have hitem := scan_item (m := m) (hitems i List.mem_cons_self) hrest
    rw [textOf, List.flatMap_cons, List.append_assoc]
    rw [textOf] at hitem
    rw [hitem]
    simp [Scan.push, bytesOf]

/-- The pieces after the first one derive what follows it. -/
theorem Derives.tail {p : Piece} {pieces : List Piece} {t : Text} (h : Derives (p :: pieces) t) :
    ∃ u, t = p.text ++ u ∧ Derives pieces u :=
  ⟨pieces.flatMap Piece.text, by rw [← h.text, List.flatMap_cons],
    fun p' hp' => h.valid p' (List.mem_cons_of_mem _ hp'), h.maximal.tail, rfl⟩

/-- A derivation is read as its tokens; nothing is left open at its beginning unless that is a bare
run. -/
theorem scan_of_derives {pieces : List Piece} {t : Text} (h : Derives pieces t) (n : Nat) :
    ∃ s, scan none n t = .ok s ∧ s.bare = tokensOf pieces ∧
      ((∀ p ∈ pieces.head?, p.isBare = false) → s.1 = []) := by
  induction pieces generalizing t n with
  | nil =>
    refine ⟨([], []), ?_, rfl, fun _ => rfl⟩
    rw [← h.text, List.flatMap_nil, scan]
  | cons p pieces ih =>
    have hvalid := h.valid p List.mem_cons_self
    obtain ⟨u, rfl, hu⟩ := h.tail
    obtain ⟨s, hs, hbare, hopen⟩ := ih hu n
    cases p with
    | blank c =>
      refine ⟨([], s.bare), ?_, hbare, fun _ => rfl⟩
      rw [Piece.text, List.singleton_append, scan_blank hvalid, scan_from hs]
      rfl
    | bare items =>
      -- the run ends here, so that what follows it leaves nothing open
      have hnext : s.1 = [] := by
        refine hopen fun p' hp' => ?_
        have hborder := (List.isChain_cons.1 h.maximal).1 p' hp'
        simpa [Piece.isBare] using hborder
      have htokens : s.2 = tokensOf pieces := by
        rw [← hbare, Scan.bare, if_pos hnext]
      refine ⟨s.push (bytesOf items), scan_items hvalid.2 hs, ?_, ?_⟩
      · have hne : bytesOf items ≠ [] := fun hnil => hvalid.1 (bytesOf_eq_nil_iff.1 hnil)
        rw [Scan.bare, if_neg (by simp [Scan.push, hne]), Scan.quoted]
        simp [Scan.push, hnext, htokens, tokensOf, Piece.token?]
      · intro hno
        exact absurd (hno _ rfl) (by simp [Piece.isBare])
    | quoted q items =>
      refine ⟨([], Utf8.decodeLossy (bytesOf items) :: s.bare), ?_, ?_, fun _ => rfl⟩
      · have hq : q ≠ '\\' := by rcases hvalid.1 with rfl | rfl <;> decide
        have hclose : scan (some q) n (q :: u) = .ok ([], s.bare) := by
          rw [scan_close hq, scan_from hs]
          rfl
        have hinside := scan_items (m := n + 1) hvalid.2 hclose
        rw [Piece.text, List.cons_append, List.append_assoc, List.singleton_append,
          scan_open (isQuote_iff.2 hvalid.1), hinside]
        simp [Except.map, Scan.push, Scan.quoted]
      · rw [Scan.bare, if_pos rfl, hbare]
        rfl

/-- A line is cut into the tokens that a derivation of it means. -/
theorem tokenize_of_derives {pieces : List Piece} {t : Text} (h : Derives pieces t) :
    tokenize t = .ok (tokensOf pieces) := by
  obtain ⟨s, hs, hbare, -⟩ := scan_of_derives h 0
  exact map_eq_ok.2 ⟨s, hs, hbare⟩

/-! ## A scan finds a derivation -/

/-- The text from the end of a run on, and its tokens: a closing quote and a derivation, or a
derivation that does not go on with a bare run. -/
def Ends : Option Char → Text → List Text → Prop
  | none, t, ts => ∃ pieces, Derives pieces t ∧ tokensOf pieces = ts ∧
      ∀ p ∈ pieces.head?, p.isBare = false
  | some q, t, ts => ∃ u pieces, t = q :: u ∧ Derives pieces u ∧ tokensOf pieces = ts

/-- What a scan has found in a text: first the items up to the end of the run that it is in. -/
def Reads (q : Option Char) (t : Text) (s : Scan) : Prop :=
  ∃ items u, t = textOf items ++ u ∧ (∀ i ∈ items, i.Fits q) ∧ bytesOf items = s.1 ∧ Ends q u s.2

theorem Ends.reads {q : Option Char} {t : Text} {ts : List Text} (h : Ends q t ts) :
    Reads q t ([], ts) := ⟨[], t, rfl, by simp, rfl, h⟩

theorem Reads.push {q : Option Char} {t : Text} {s : Scan} (h : Reads q t s) {i : Item}
    (hi : i.Fits q) : Reads q (i.text ++ t) (s.push i.bytes) := by
  obtain ⟨items, u, rfl, hitems, hbytes, hends⟩ := h
  refine ⟨i :: items, u, ?_, ?_, ?_, hends⟩
  · simp [textOf]
  · intro j hj
    rcases List.mem_cons.1 hj with rfl | hj
    · exact hi
    · exact hitems j hj
  · simp [bytesOf, Scan.push, ← hbytes]

theorem derives_nil : Derives [] [] := ⟨by simp, List.isChain_nil, rfl⟩

/-- One more piece in front of a derivation, unless both begin with a bare run. -/
theorem Derives.cons {p : Piece} {pieces : List Piece} {t : Text} (h : Derives pieces t)
    (hp : p.Valid) (hborder : p.isBare = true → ∀ p' ∈ pieces.head?, p'.isBare = false) :
    Derives (p :: pieces) (p.text ++ t) := by
  refine ⟨?_, ?_, by rw [List.flatMap_cons, h.text]⟩
  · intro p' hp'
    rcases List.mem_cons.1 hp' with rfl | hp'
    · exact hp
    · exact h.valid p' hp'
  · refine List.isChain_cons.2 ⟨?_, h.maximal⟩
    rintro p' hp' ⟨hbare, hbare'⟩
    rw [hborder hbare p' hp'] at hbare'
    cases hbare'

/-- Outside quotes, what has been found is a derivation: the open items are its first run. -/
theorem Reads.derives {t : Text} {s : Scan} (h : Reads none t s) :
    ∃ pieces, Derives pieces t ∧ tokensOf pieces = s.bare := by
  obtain ⟨items, u, rfl, hitems, hbytes, pieces, hpieces, htokens, hborder⟩ := h
  by_cases hnil : items = []
  · subst hnil
    have hempty : s.1 = [] := hbytes.symm
    exact ⟨pieces, hpieces, by rw [Scan.bare, if_pos hempty, htokens]⟩
  · refine ⟨.bare items :: pieces, hpieces.cons ⟨hnil, hitems⟩ fun _ => hborder, ?_⟩
    have hne : s.1 ≠ [] := by
      rw [← hbytes]
      exact fun h => hnil (bytesOf_eq_nil_iff.1 h)
    rw [Scan.bare, if_neg hne, Scan.quoted, ← hbytes, ← htokens]
    rfl

theorem ends_blank {c : Char} (hc : isBlank c = true) {t : Text} {s : Scan} (h : Reads none t s) :
    Ends none (c :: t) s.bare := by
  obtain ⟨pieces, hpieces, htokens⟩ := h.derives
  exact ⟨.blank c :: pieces, hpieces.cons hc (by simp [Piece.isBare]), htokens,
    by simp [Piece.isBare]⟩

theorem ends_open {c : Char} (hc : isQuote c = true) {t : Text} {s : Scan}
    (h : Reads (some c) t s) : Ends none (c :: t) s.quoted := by
  obtain ⟨items, _, rfl, hitems, hbytes, u, pieces, rfl, hpieces, htokens⟩ := h
  have hp : (Piece.quoted c items).Valid := ⟨isQuote_iff.1 hc, hitems⟩
  have hderives := hpieces.cons hp (by simp [Piece.isBare])
  refine ⟨.quoted c items :: pieces, ?_, ?_, by simp [Piece.isBare]⟩
  · simpa [Piece.text] using hderives
  · rw [Scan.quoted, ← hbytes, ← htokens]
    rfl

theorem ends_close {q : Char} {t : Text} {s : Scan} (h : Reads none t s) :
    Ends (some q) (q :: t) s.bare := by
  obtain ⟨pieces, hpieces, htokens⟩ := h.derives
  exact ⟨t, pieces, rfl, hpieces, htokens⟩

/-- What a scan reads is a derivation of the text. -/
theorem reads_of_scan {q : Option Char} {n : Nat} {t : Text} {s : Scan} (h : scan q n t = .ok s) :
    Reads q t s := by
  -- along the scan; a branch that halts is excluded by `h`, any other reads one item or ends a run
  fun_induction scan q n t generalizing s with
  | case1 =>
    cases h
    exact Ends.reads ⟨[], derives_nil, rfl, by simp⟩
  | case2 | case3 | case4 | case5 | case6 | case7 | case10 => cases h
  | case8 q n c high d rest hc low hd ih =>
    obtain ⟨s, hs, rfl⟩ := map_eq_ok.1 h
    rw [hexDigit?_eq] at hc hd
    split_ifs at hc hd with hmem hmem'
    cases hc
    cases hd
    exact (ih hs).push (i := .byte c d) ⟨hmem, hmem'⟩
  | case9 q n c rest hx hc ih =>
    obtain ⟨s, hs, rfl⟩ := map_eq_ok.1 h
    exact (ih hs).push (i := .escaped c) (isEscapable_iff.1 hc)
  | case11 n c rest hs hc ih =>
    obtain ⟨s, hs, rfl⟩ := map_eq_ok.1 h
    exact (ends_open hc (ih hs)).reads
  | case12 n c rest hs hq hc ih =>
    obtain ⟨s, hs, rfl⟩ := map_eq_ok.1 h
    exact (ends_blank hc (ih hs)).reads
  | case13 n c rest hc hq hb ih =>
    obtain ⟨s, hs, rfl⟩ := map_eq_ok.1 h
    have hp : isPlain c = true := by simpa [isPlain, hq, hb] using hc
    exact (ih hs).push (isPlain_iff.1 hp)
  | case14 n c rest hc ih =>
    obtain ⟨s, hs, rfl⟩ := map_eq_ok.1 h
    exact (ends_close (ih hs)).reads
  | case15 q n c rest hc hq ih =>
    obtain ⟨s, hs, rfl⟩ := map_eq_ok.1 h
    exact (ih hs).push (i := .plain c) ⟨hc, hq⟩

/-- A line can be cut into tokens exactly when the grammar derives it, and then the tokens are those
that a derivation means. -/
theorem tokenize_eq_ok_iff (t : Text) (ts : List Text) :
    tokenize t = .ok ts ↔ ∃ pieces, Derives pieces t ∧ tokensOf pieces = ts := by
  constructor
  · intro h
    obtain ⟨s, hs, rfl⟩ := map_eq_ok.1 h
    exact (reads_of_scan hs).derives
  · rintro ⟨pieces, hpieces, rfl⟩
    obtain ⟨s, hs, hbare, -⟩ := scan_of_derives hpieces 0
    exact map_eq_ok.2 ⟨s, hs, hbare⟩

end ClusterConsole.Token
