/-
Numbers on the wire. A number is read up to the first byte that can be no part of one, whatever
follows (`readNumber_append`), and a 64-bit integer is read back as it was written
(`reread_natural`, `reread_negSucc`). What the text of a floating-point number is read back as is
left to `Number.reread`: it need not be the number that was written.
-/
import ClusterConsole.Json.Reader
import ClusterConsole.Proofs.Except
import ClusterConsole.Proofs.Text.Numeral
import ClusterConsole.Proofs.Text.Utf8
import Mathlib.Data.List.TakeWhile

namespace ClusterConsole.Json

/-! ## Bytes of numbers -/

/-- Whether a byte can be part of a number. -/
def isNumberByte (b : UInt8) : Bool :=
  isDigit b || b == 0x2B || b == 0x2D || b == 0x2E || b == 0x45 || b == 0x65

/-- The bytes do not go on with a number. -/
def Delimited (rest : Bytes) : Prop := ∀ b ∈ rest.head?, isNumberByte b = false

theorem delimited_nil : Delimited [] := by simp [Delimited]

theorem delimited_cons {b : UInt8} (rest : Bytes) (h : isNumberByte b = false) :
    Delimited (b :: rest) := by
  simpa [Delimited] using h

theorem ne_of_isNumberByte {b c : UInt8} (h : isNumberByte b = true)
    (hc : isNumberByte c = false) : b ≠ c := by
  rintro rfl
  rw [h] at hc
  cases hc

theorem isNumberByte_of_isDigit {b : UInt8} (h : isDigit b = true) : isNumberByte b = true := by
  simp [isNumberByte, h]

theorem isDigit_of_delimited {b : UInt8} {more : Bytes} (h : Delimited (b :: more)) :
    isDigit b = false := by
  by_contra hb
  have := h b rfl
  rw [isNumberByte_of_isDigit (by simpa using hb)] at this
  cases this

theorem ne_of_delimited {b c : UInt8} {more : Bytes} (h : Delimited (b :: more))
    (hc : isNumberByte c = true) : b ≠ c := (ne_of_isNumberByte hc (h b rfl)).symm

/-- All of the bytes can be part of a number. -/
def Numeric (bs : Bytes) : Prop := ∀ b ∈ bs, isNumberByte b = true

theorem Numeric.tail {b : UInt8} {bs : Bytes} (h : Numeric (b :: bs)) : Numeric bs :=
  fun b' hb' => h b' (by simp [hb'])

theorem Numeric.afterDigits {bs : Bytes} (h : Numeric bs) : Numeric (readDigits bs).2 :=
  fun b hb => h b ((List.dropWhile_suffix isDigit).subset hb)

/-! ## Locality -/

/-- Two readers agree up to the bytes `rest`, which the second one leaves in addition. What both
leave can be part of a number. -/
inductive Agree {α : Type} (rest : Bytes) :
    Except Halt (α × Bytes) → Except Halt (α × Bytes) → Prop
  | ok (a : α) {left : Bytes} (h : Numeric left) :
    Agree rest (.ok (a, left)) (.ok (a, left ++ rest))
  | error (e e' : Halt) : Agree rest (.error e) (.error e')

theorem Agree.map {α β : Type} {rest : Bytes} {r r' : Except Halt (α × Bytes)} (f : α → β)
    (h : Agree rest r r') :
    Agree rest (r.map fun p => (f p.1, p.2)) (r'.map fun p => (f p.1, p.2)) := by
  cases h with
  | ok a hleft => exact .ok (f a) hleft
  | error e e' => exact .error e e'

variable {rest : Bytes}

theorem readDigits_append (hrest : Delimited rest) (bs : Bytes) :
    readDigits (bs ++ rest) = ((readDigits bs).1, (readDigits bs).2 ++ rest) := by
  induction bs with
  | nil =>
    cases rest with
    | nil => rfl
    | cons b more =>
      simp [readDigits, isDigit_of_delimited hrest]
  | cons b bs ih =>
    cases hb : isDigit b with
    | true =>
      simp only [readDigits, Prod.mk.injEq] at ih
      simp [readDigits, hb, ih.1, ih.2]
    | false => simp [readDigits, hb]

theorem agree_finishFloat {bs : Bytes} (hbs : Numeric bs) (neg : Bool) (s : Nat) (e : Int) :
    Agree rest (finishFloat neg s e bs) (finishFloat neg s e (bs ++ rest)) := by
  unfold finishFloat
  split
  · exact .ok _ hbs
  · exact .error _ _

/-- Reads the digits of an exponent, after its sign. -/
def exponentDigits (neg : Bool) (s : Nat) (start : Int) (down : Bool) (bs : Bytes) :
    Except Halt (Number × Bytes) :=
  match bs with
  | [] => halt .endInValue []
  | b :: rest =>
    if !isDigit b then halt .invalidNumber rest
    else
      let (digits, after) := readDigits bs
      match exponentValue 0 digits with
      | .inl e => finishFloat neg s (if down then start - e else start + e) after
      | .inr more =>
        if s ≠ 0 ∧ !down then halt .numberOutOfRange (more ++ after)
        else .ok (.float (Binary64.zero neg), after)

/-- The sign of an exponent, and the bytes after it. -/
def exponentSign : Bytes → Bool × Bytes
  | 0x2B :: rest => (false, rest)
  | 0x2D :: rest => (true, rest)
  | bs => (false, bs)

theorem readExponent_eq (neg : Bool) (s : Nat) (start : Int) (bs : Bytes) :
    readExponent neg s start bs =
      exponentDigits neg s start (exponentSign bs).1 (exponentSign bs).2 := by
  cases bs with
  | nil => rfl
  | cons b rest =>
    by_cases hplus : b = 0x2B
    · rw [hplus]
      rfl
    by_cases hminus : b = 0x2D
    · rw [hminus]
      rfl
    -- without a sign the reader goes on with all bytes
    have hsign : exponentSign (b :: rest) = (false, b :: rest) := by
      simp [exponentSign, hplus, hminus]
    rw [hsign]
    unfold readExponent
    split
    rename_i down more heq
    obtain ⟨rfl, rfl⟩ : false = down ∧ b :: rest = more := by simpa [hplus, hminus] using heq
    rfl

theorem exponentSign_append (hrest : Delimited rest) (bs : Bytes) :
    exponentSign (bs ++ rest) = ((exponentSign bs).1, (exponentSign bs).2 ++ rest) := by
  cases bs with
  | nil =>
    cases rest with
    | nil => rfl
    | cons b more =>
      have hplus : b ≠ 0x2B := ne_of_delimited hrest (by decide)
      have hminus : b ≠ 0x2D := ne_of_delimited hrest (by decide)
      simp [exponentSign, hplus, hminus]
  | cons b bs =>
    by_cases hplus : b = 0x2B
    · rw [hplus]
      rfl
    by_cases hminus : b = 0x2D
    · rw [hminus]
      rfl
    simp [exponentSign, hplus, hminus]

theorem agree_exponentDigits (hrest : Delimited rest) {bs : Bytes} (hbs : Numeric bs) (neg : Bool)
    (s : Nat) (start : Int) (down : Bool) :
    Agree rest (exponentDigits neg s start down bs)
      (exponentDigits neg s start down (bs ++ rest)) := by
  cases bs with
  | nil =>
    cases rest with
    | nil => exact .error _ _
    | cons b more =>
      have hb : isDigit b = false := isDigit_of_delimited hrest
      simp only [List.nil_append, exponentDigits, hb]
      exact .error _ _
  | cons b bs =>
    have happend := readDigits_append hrest (b :: bs)
    rw [List.cons_append] at happend ⊢
    simp only [exponentDigits]
    cases hb : isDigit b with
    | false => exact .error _ _
    | true =>
      rw [happend]
      simp only [Bool.not_true, Bool.false_eq_true, if_false]
      split
      · exact agree_finishFloat hbs.afterDigits _ _ _
      · split_ifs
        · exact .error _ _
        · exact .ok _ hbs.afterDigits

theorem Numeric.afterSign {bs : Bytes} (h : Numeric bs) : Numeric (exponentSign bs).2 := by
  unfold exponentSign
  split
  · exact h.tail
  · exact h.tail
  · exact h

theorem agree_readExponent (hrest : Delimited rest) {bs : Bytes} (hbs : Numeric bs) (neg : Bool)
    (s : Nat) (start : Int) :
    Agree rest (readExponent neg s start bs) (readExponent neg s start (bs ++ rest)) := by
  rw [readExponent_eq, readExponent_eq, exponentSign_append hrest]
  exact agree_exponentDigits hrest hbs.afterSign _ _ _ _

theorem agree_readFloatTail (hrest : Delimited rest) {bs : Bytes} (hbs : Numeric bs) (neg : Bool)
    (s : Nat) (e : Int) :
    Agree rest (readFloatTail neg s e bs) (readFloatTail neg s e (bs ++ rest)) := by
  unfold readFloatTail
  cases bs with
  | nil =>
    cases rest with
    | nil => exact agree_finishFloat hbs neg s e
    | cons b more =>
      have hsmall : b ≠ 0x65 := ne_of_delimited hrest (by decide)
      have hlarge : b ≠ 0x45 := ne_of_delimited hrest (by decide)
      have h : Agree (b :: more) (finishFloat neg s e []) (finishFloat neg s e ([] ++ b :: more)) :=
        agree_finishFloat hbs neg s e
      simpa [hsmall, hlarge] using h
  | cons b bs =>
    by_cases hsmall : b = 0x65
    · rw [hsmall]
      exact agree_readExponent hrest hbs.tail neg s e
    by_cases hlarge : b = 0x45
    · rw [hlarge]
      exact agree_readExponent hrest hbs.tail neg s e
    have h : Agree rest (finishFloat neg s e (b :: bs)) (finishFloat neg s e (b :: bs ++ rest)) :=
      agree_finishFloat hbs neg s e
    simpa [hsmall, hlarge] using h

theorem agree_readFraction (hrest : Delimited rest) {bs : Bytes} (hbs : Numeric bs) (neg : Bool)
    (s : Nat) (e : Int) :
    Agree rest (readFraction neg s e bs) (readFraction neg s e (bs ++ rest)) := by
  unfold readFraction
  have hafter := hbs.afterDigits
  rw [readDigits_append hrest]
  cases hd : readDigits bs with
  | mk digits after =>
    rw [hd] at hafter
    -- without a digit after the point both halt, if not in the same way
    cases digits with
    | nil => cases after <;> cases rest <;> exact .error _ _
    | cons d ds => exact agree_readFloatTail hrest hafter _ _ _

/-- Reads what follows the digits at the front of a number: `left` of them are beyond the
significand `s`. -/
def numberTail (neg : Bool) (s left : Nat) (after : Bytes) : Except Halt (Number × Bytes) :=
  match after with
  | 0x2E :: more => readFraction neg s left more
  | _ =>
    if left = 0 then
      match after with
      | 0x65 :: more => readExponent neg s 0 more
      | 0x45 :: more => readExponent neg s 0 more
      | _ => .ok (integer neg s, after)
    else readFloatTail neg s left after

theorem readNumber_cons {b : UInt8} (hb : isDigit b = true) (neg : Bool) (bs : Bytes) :
    readNumber neg (b :: bs) =
      if b = 0x30 ∧ 1 < (readDigits (b :: bs)).1.length then haltAfter .invalidNumber bs
      else numberTail neg (significand 0 (readDigits (b :: bs)).1).1
        (significand 0 (readDigits (b :: bs)).1).2.2 (readDigits (b :: bs)).2 := by
  simp only [readNumber, hb, Bool.not_true, Bool.false_eq_true, if_false]
  rfl

theorem numberTail_of_not_mem {after : Bytes} (h : ∀ b ∈ after.head?, b ∉ [0x2E, 0x65, 0x45])
    (neg : Bool) (s left : Nat) :
    numberTail neg s left after =
      if left = 0 then .ok (integer neg s, after) else readFloatTail neg s left after := by
  cases after with
  | nil => rfl
  | cons b more =>
    have hb := h b rfl
    simp only [List.mem_cons, List.not_mem_nil, or_false, not_or] at hb
    simp [numberTail, hb]

theorem agree_numberTail (hrest : Delimited rest) {after : Bytes} (hafter : Numeric after)
    (neg : Bool) (s left : Nat) :
    Agree rest (numberTail neg s left after) (numberTail neg s left (after ++ rest)) := by
  have htail := agree_readFloatTail hrest hafter neg s left
  cases after with
  | nil =>
    have hhead : ∀ b ∈ rest.head?, b ∉ [0x2E, 0x65, 0x45] := by
      intro b hb hmem
      have := hrest b hb
      rcases List.mem_cons.1 hmem with rfl | hmem
      · cases this
      rcases List.mem_cons.1 hmem with rfl | hmem
      · cases this
      · rw [List.mem_singleton] at hmem
        subst hmem
        cases this
    rw [List.nil_append] at htail ⊢
    rw [numberTail_of_not_mem (by simp), numberTail_of_not_mem hhead]
    split_ifs
    · exact .ok _ hafter
    · exact htail
  | cons b after =>
    by_cases hpoint : b = 0x2E
    · rw [hpoint]
      exact agree_readFraction hrest hafter.tail neg s left
    by_cases hleft : left = 0
    · by_cases hsmall : b = 0x65
      · have h := agree_readExponent hrest hafter.tail neg s 0
        simpa [numberTail, hsmall, hleft] using h
      by_cases hlarge : b = 0x45
      · have h := agree_readExponent hrest hafter.tail neg s 0
        simpa [numberTail, hlarge, hleft] using h
      have h : Agree rest (.ok (integer neg s, b :: after))
          (.ok (integer neg s, b :: after ++ rest)) := .ok _ hafter
      simpa [numberTail, hpoint, hsmall, hlarge, hleft] using h
    · simpa [numberTail, hpoint, hleft] using htail

/-- A number is read up to the first byte that can be no part of one, whatever follows. -/
theorem readNumber_append (hrest : Delimited rest) {bs : Bytes} (hbs : Numeric bs) (neg : Bool) :
    Agree rest (readNumber neg bs) (readNumber neg (bs ++ rest)) := by
  cases bs with
  | nil =>
    cases rest with
    | nil => exact .error _ _
    | cons b more =>
      simp only [List.nil_append, readNumber, isDigit_of_delimited hrest]
      exact .error _ _
  | cons b bs =>
    cases hb : isDigit b with
    | false =>
      simp only [List.cons_append, readNumber, hb]
      exact .error _ _
    | true =>
      have happend := readDigits_append hrest (b :: bs)
      rw [List.cons_append] at happend ⊢
      rw [readNumber_cons hb, readNumber_cons hb, happend]
      split_ifs
      · exact .error _ _
      · exact agree_numberTail hrest hbs.afterDigits _ _ _

/-! ## Integers -/

theorem byte_toNat {c : Char} (h : c.isDigit = true) : (UInt8.ofNat c.toNat).toNat = c.toNat :=
  Utf8.toNat_ofNat_of_lt (by have := Text.isDigit_iff.1 h; omega)

theorem isDigit_byte {c : Char} (h : c.isDigit = true) : isDigit (UInt8.ofNat c.toNat) = true := by
  have hb := byte_toNat h
  have hc := Text.isDigit_iff.1 h
  simp only [isDigit, Bool.and_eq_true, decide_eq_true_eq, UInt8.le_iff_toNat_le, hb]
  exact hc

theorem digitValue_byte {c : Char} (h : c.isDigit = true) :
    digitValue (UInt8.ofNat c.toNat) = c.toNat - '0'.toNat := by
  rw [digitValue, byte_toNat h]
  rfl

/-- The bytes of digits, one for each. -/
theorem encode_digits {ds : Text} (h : ∀ c ∈ ds, c.isDigit = true) :
    Utf8.encode ds = ds.map fun c => UInt8.ofNat c.toNat := by
  induction ds with
  | nil => rfl
  | cons c ds ih =>
    have hc := Text.isDigit_iff.1 (h c (by simp))
    rw [Utf8.encode_cons, Utf8.encodeChar_ascii (by omega), ih fun d hd => h d (by simp [hd])]
    rfl

theorem readDigits_encode {ds : Text} (h : ∀ c ∈ ds, c.isDigit = true) :
    readDigits (Utf8.encode ds) = (Utf8.encode ds, []) := by
  have hall : ∀ b ∈ Utf8.encode ds, isDigit b = true := by
    rw [encode_digits h]
    intro b hb
    obtain ⟨c, hc, rfl⟩ := List.mem_map.1 hb
    exact isDigit_byte (h c hc)
  rw [readDigits, List.takeWhile_eq_self_iff.2 hall, List.dropWhile_eq_nil_iff.2 hall]

theorem le_foldl_digits (ds : Text) (s : Nat) :
    s ≤ ds.foldl (fun n c => n * 10 + (c.toNat - '0'.toNat)) s := by
  induction ds generalizing s with
  | nil => exact Nat.le_refl s
  | cons c ds ih =>
    have hle := ih (s * 10 + (c.toNat - '0'.toNat))
    rw [List.foldl_cons]
    omega

/-- All digits go into the significand when their value stays below 2 ^ 64. -/
theorem significand_encode {ds : Text} (h : ∀ c ∈ ds, c.isDigit = true) (s : Nat)
    (hlt : ds.foldl (fun n c => n * 10 + (c.toNat - '0'.toNat)) s < UInt64.size) :
    significand s (Utf8.encode ds) =
      (ds.foldl (fun n c => n * 10 + (c.toNat - '0'.toNat)) s, ds.length, 0) := by
  rw [encode_digits h]
  induction ds generalizing s with
  | nil => rfl
  | cons c ds ih =>
    have hle := le_foldl_digits ds (s * 10 + (c.toNat - '0'.toNat))
    rw [List.foldl_cons] at hlt ⊢
    rw [List.map_cons, significand, digitValue_byte (h c (by simp)), if_pos (by omega),
      ih (fun d hd => h d (by simp [hd])) _ hlt]
    rfl

/-- The numeral of a number of 64 bits is read as that number. -/
theorem readNumber_ofNat {n : Nat} (hn : n < UInt64.size) (neg : Bool) :
    readNumber neg (Utf8.encode (Text.ofNat n)) = .ok (integer neg n, []) := by
  have hdigits : ∀ c ∈ Text.ofNat n, c.isDigit = true := fun c => Text.isDigit_of_mem_ofNat
  have hvalue := Text.foldl_ofNat n
  have hsig := significand_encode hdigits 0 (by rw [hvalue]; exact hn)
  have hread := readDigits_encode hdigits
  rw [hvalue] at hsig
  have hzero : ∀ ds, Text.ofNat n = '0' :: ds → ds = [] := fun ds => Text.length_ofNat_of_zero
  cases hds : Text.ofNat n with
  | nil => exact absurd hds (Text.ofNat_ne_nil n)
  | cons c ds =>
    rw [hds] at hdigits hsig hread hzero
    rw [encode_digits hdigits, List.map_cons] at hsig hread ⊢
    rw [readNumber_cons (isDigit_byte (hdigits c (by simp))), hread, if_neg, hsig]
    · rfl
    · -- a zero in front is refused only when digits follow it, and none do
      rintro ⟨hc, hlen⟩
      have hc' : c = '0' := by
        have h1 := byte_toNat (hdigits c (by simp))
        rw [hc] at h1
        exact Char.toNat_inj.1 h1.symm
      rw [hzero ds (by rw [hc'])] at hlen
      simp at hlen

/-! ## Numbers as they are written -/

/-- A character that can be part of a number as it is written. -/
def isNumberChar (c : Char) : Bool := c.isDigit || ['+', '-', '.', 'e'].contains c

theorem isNumberChar_of_isDigit {c : Char} (h : c.isDigit = true) : isNumberChar c = true := by
  simp [isNumberChar, h]

theorem encodeChar_of_isNumberChar {c : Char} (h : isNumberChar c = true) :
    ∃ b, String.utf8EncodeChar c = [b] ∧ isNumberByte b = true := by
  rw [isNumberChar, Bool.or_eq_true] at h
  rcases h with h | h
  · have hc := Text.isDigit_iff.1 h
    exact ⟨_, Utf8.encodeChar_ascii (by omega), isNumberByte_of_isDigit (isDigit_byte h)⟩
  · simp only [List.contains_eq_mem, List.mem_cons, List.not_mem_nil, or_false,
      decide_eq_true_eq] at h
    rcases h with rfl | rfl | rfl | rfl <;> exact ⟨_, rfl, by decide⟩

/-- All of the characters can be part of a number. -/
def NumberText (t : Text) : Prop := ∀ c ∈ t, isNumberChar c = true

theorem NumberText.append {t u : Text} (ht : NumberText t) (hu : NumberText u) :
    NumberText (t ++ u) := by
  intro c hc
  rcases List.mem_append.1 hc with hc | hc
  · exact ht c hc
  · exact hu c hc

theorem NumberText.cons {c : Char} {t : Text} (hc : isNumberChar c = true) (ht : NumberText t) :
    NumberText (c :: t) := by
  intro d hd
  rcases List.mem_cons.1 hd with rfl | hd
  · exact hc
  · exact ht d hd

theorem NumberText.of_subset {t u : Text} (ht : NumberText t) (h : u ⊆ t) : NumberText u :=
  fun c hc => ht c (h hc)

theorem numberText_replicate (n : Nat) : NumberText (List.replicate n '0') := by
  intro c hc
  rw [List.eq_of_mem_replicate hc]
  decide

theorem numberText_ofNat (n : Nat) : NumberText (Text.ofNat n) :=
  fun _ hc => isNumberChar_of_isDigit (Text.isDigit_of_mem_ofNat hc)

theorem numberText_shortest (x : Binary64) : NumberText x.shortest.1 := by
  refine (numberText_ofNat (x.firstDecimal 17 1).1).of_subset fun c hc => ?_
  have hkept := (List.dropWhile_suffix _).subset (List.mem_reverse.1 hc)
  exact List.mem_reverse.1 hkept

theorem numberText_format {digits : Text} (hd : NumberText digits) (f : FloatFormat) (e : Int) :
    NumberText (f.write digits e) := by
  have hpadded := fun n => hd.append (numberText_replicate n)
  unfold FloatFormat.write
  by_cases hrange : f.least ≤ e ∧ e ≤ f.greatest
  · rw [if_pos hrange]
    by_cases hneg : e < 0
    · rw [if_pos hneg]
      have hzero : NumberText ("0." : String).toList := List.all_eq_true.1 rfl
      exact (hzero.append (numberText_replicate _)).append hd
    · rw [if_neg hneg]
      refine ((hpadded _).of_subset (List.take_subset _ _)).append (NumberText.cons (by decide) ?_)
      split_ifs
      · exact NumberText.cons (by decide) (numberText_replicate 0)
      · exact (hpadded _).of_subset (List.drop_subset _ _)
  · rw [if_neg hrange]
    refine NumberText.append ?_ (NumberText.cons (by decide) (NumberText.cons ?_ ?_))
    · split
      · rename_i d d' ds
        have hmore : NumberText (d' :: ds) := fun c hc => hd c (by simp [hc])
        exact NumberText.cons (hd d (by simp)) (NumberText.cons (by decide) hmore)
      · exact hd
    · by_cases hneg : e < 0
      · rw [if_pos hneg]
        decide
      · rw [if_neg hneg]
        decide
    · exact (numberText_replicate _).append (numberText_ofNat _)

theorem format_ne_nil (f : FloatFormat) (digits : Text) (e : Int) : f.write digits e ≠ [] := by
  unfold FloatFormat.write
  by_cases hrange : f.least ≤ e ∧ e ≤ f.greatest
  · rw [if_pos hrange]
    by_cases hneg : e < 0
    · rw [if_pos hneg]
      simp
    · rw [if_neg hneg]
      simp
  · rw [if_neg hrange]
    simp

/-- The sign and the digits of a floating-point number. -/
theorem writeFloat_eq (x : Binary64) :
    writeFloat x = (if x.negative then ['-'] else []) ++
      if x.isZero then ("0.0" : String).toList
      else floatFormat.write x.shortest.1 x.shortest.2 := by
  unfold writeFloat
  by_cases hzero : x.isZero = true
  · rw [if_pos hzero, if_pos hzero]
  · rw [if_neg hzero, if_neg hzero]

theorem numberText_writeFloat (x : Binary64) : NumberText (writeFloat x) := by
  rw [writeFloat_eq]
  refine NumberText.append ?_ ?_
  · split_ifs
    · exact NumberText.cons (by decide) (numberText_replicate 0)
    · exact numberText_replicate 0
  · split_ifs
    · exact List.all_eq_true.1 rfl
    · exact numberText_format (numberText_shortest x) _ _

theorem writeFloat_ne_nil (x : Binary64) : writeFloat x ≠ [] := by
  rw [writeFloat_eq]
  refine List.append_ne_nil_of_right_ne_nil _ ?_
  split_ifs
  · simp
  · exact format_ne_nil _ _ _

theorem numberText_write (n : Number) : NumberText n.write := by
  cases n with
  | natural n => exact numberText_ofNat _
  | negSucc n => exact NumberText.cons (by decide) (numberText_ofNat _)
  | float x => exact numberText_writeFloat x

theorem Number.write_ne_nil (n : Number) : n.write ≠ [] := by
  cases n with
  | natural n => exact Text.ofNat_ne_nil _
  | negSucc n => exact List.cons_ne_nil _ _
  | float x => exact writeFloat_ne_nil x

theorem numeric_encode {t : Text} (h : NumberText t) : Numeric (Utf8.encode t) := by
  intro b hb
  obtain ⟨c, hc, hb⟩ := List.mem_flatMap.1 hb
  obtain ⟨b', hbytes, hnumber⟩ := encodeChar_of_isNumberChar (h c hc)
  rw [hbytes, List.mem_singleton] at hb
  rw [hb]
  exact hnumber

/-! ## Reading numbers back -/

/-- What the text of a number is read back as. -/
def Number.reread (n : Number) : Option Number :=
  match readAt 1 (Utf8.encode n.write) with
  | .ok (.number m, []) => some m
  | _ => none

theorem skipGaps_cons {b : UInt8} (h : isGap b = false) (bs : Bytes) :
    skipGaps (b :: bs) = b :: bs := by
  simp [skipGaps, h]

theorem isGap_of_isNumberByte {b : UInt8} (h : isNumberByte b = true) : isGap b = false := by
  by_contra hgap
  simp only [Bool.not_eq_false, isGap, Bool.or_eq_true, beq_iff_eq] at hgap
  rcases hgap with ((rfl | rfl) | rfl) | rfl <;> cases h

/-- How a value is read that begins with a byte of a number. -/
theorem readAt_of_isNumberByte {b : UInt8} (h : isNumberByte b = true) (d : Nat) (bs : Bytes) :
    readAt (d + 1) (b :: bs) =
      if b = 0x2D then (readNumber true bs).map fun r => (Json.number r.1, r.2)
      else if isDigit b then (readNumber false (b :: bs)).map fun r => (Json.number r.1, r.2)
      else haltAfter .expectedValue (b :: bs) := by
  have hne : ∀ c, isNumberByte c = false → b ≠ c := fun c => ne_of_isNumberByte h
  rw [readAt, skipGaps_cons (isGap_of_isNumberByte h)]
  simp only [hne 0x6E (by decide), hne 0x74 (by decide), hne 0x66 (by decide), hne 0x22 (by decide),
    hne 0x5B (by decide), hne 0x7B (by decide), if_false]

/-- A number inside a document is read as it is on its own. -/
theorem agree_readAt {rest : Bytes} (hrest : Delimited rest) {bs : Bytes} (hbs : Numeric bs)
    (hne : bs ≠ []) (d : Nat) : Agree rest (readAt 1 bs) (readAt (d + 1) (bs ++ rest)) := by
  cases bs with
  | nil => exact absurd rfl hne
  | cons b bs =>
    have hb := hbs b (by simp)
    rw [List.cons_append, readAt_of_isNumberByte hb, readAt_of_isNumberByte hb]
    split_ifs
    · exact (readNumber_append hrest hbs.tail true).map _
    · exact (readNumber_append hrest hbs false).map _
    · exact .error _ _

/-- A reader does not get through to the end of what it is to read: it halts, or what it leaves
goes on with a number. -/
def Spoiled {α : Type} (r : Except Halt (α × Bytes)) : Prop :=
  ∀ a left, r = .ok (a, left) → ∃ b more, left = b :: more ∧ isNumberByte b = true

theorem spoiled_error {α : Type} (e : Halt) : Spoiled (.error e : Except Halt (α × Bytes)) := by
  intro a left h
  cases h

theorem exists_number_of_readAt {bs : Bytes} (hbs : Numeric bs) (hne : bs ≠ []) {v : Json}
    {left : Bytes} (h : readAt 1 bs = .ok (v, left)) : ∃ n, v = .number n := by
  cases bs with
  | nil => exact absurd rfl hne
  | cons b bs =>
    rw [readAt_of_isNumberByte (hbs b (by simp))] at h
    split_ifs at h
    · obtain ⟨r, -, hr⟩ := map_eq_ok.1 h
      cases hr
      exact ⟨_, rfl⟩
    · obtain ⟨r, -, hr⟩ := map_eq_ok.1 h
      cases hr
      exact ⟨_, rfl⟩
    · cases h

/-- A number inside a document is read as what its text stands for, or spoils the document. -/
theorem readAt_number {rest : Bytes} (hrest : Delimited rest) (n : Number) (d : Nat) :
    match n.reread with
    | some m => readAt (d + 1) (Utf8.encode n.write ++ rest) = .ok (.number m, rest)
    | none => Spoiled (readAt (d + 1) (Utf8.encode n.write ++ rest)) := by
  have hnumeric := numeric_encode (numberText_write n)
  have hne : Utf8.encode n.write ≠ [] := fun h => n.write_ne_nil (Utf8.encode_eq_nil_iff.1 h)
  have hagree := agree_readAt hrest hnumeric hne d
  have hnumber : ∀ v left, readAt 1 (Utf8.encode n.write) = .ok (v, left) → ∃ m, v = .number m :=
    fun _ _ => exists_number_of_readAt hnumeric hne
  unfold Number.reread
  -- from here on only the agreement of the two readers counts
  generalize readAt 1 (Utf8.encode n.write) = r at hagree hnumber
  generalize readAt (d + 1) (Utf8.encode n.write ++ rest) = r' at hagree
  cases hagree with
  | error e e' => exact spoiled_error e'
  | ok v hleft =>
    rename_i left
    obtain ⟨m, rfl⟩ := hnumber v left rfl
    cases left with
    | nil => rfl
    | cons b more =>
      intro a left' heq
      cases heq
      exact ⟨b, more ++ rest, rfl, hleft b (by simp)⟩

/-- A natural number of 64 bits is read back as it was written. -/
theorem reread_natural (n : UInt64) : (Number.natural n).reread = some (.natural n) := by
  have hread := readNumber_ofNat n.toNat_lt_size false
  have hdigits : ∀ c ∈ Text.ofNat n.toNat, c.isDigit = true := fun c => Text.isDigit_of_mem_ofNat
  unfold Number.reread
  rw [Number.write]
  cases hds : Text.ofNat n.toNat with
  | nil => exact absurd hds (Text.ofNat_ne_nil _)
  | cons c ds =>
    rw [hds] at hread hdigits
    have hb := isDigit_byte (hdigits c (by simp))
    rw [encode_digits hdigits, List.map_cons] at hread ⊢
    -- a minus sign is no digit, so the number is read as one without a sign
    have hminus : UInt8.ofNat c.toNat ≠ 0x2D := by
      intro h
      rw [h] at hb
      cases hb
    rw [readAt_of_isNumberByte (isNumberByte_of_isDigit hb), if_neg hminus, if_pos hb, hread]
    simp [Except.map, integer]

/-- A negative integer of 64 bits is read back as it was written. -/
theorem reread_negSucc (n : Fin 0x8000000000000000) :
    (Number.negSucc n).reread = some (.negSucc n) := by
  have hlt : n.val + 1 < UInt64.size := by
    have := n.isLt
    simp only [UInt64.size]
    omega
  have hread := readNumber_ofNat hlt true
  have hminus : isNumberByte 0x2D = true := by decide
  have hbytes : Utf8.encode (Number.negSucc n).write =
      0x2D :: Utf8.encode (Text.ofNat (n.val + 1)) := rfl
  have hint : integer true (n.val + 1) = .negSucc n := by
    rw [integer, if_neg (by simp), dif_pos (by omega)]
    rfl
  unfold Number.reread
  rw [hbytes, readAt_of_isNumberByte hminus, if_pos rfl, hread, hint]
  rfl

end ClusterConsole.Json
