/-
Texts may be compared by their bytes: UTF-8 keeps the order of texts (`compare_encode`), because the
bytes of a character compare as its code point does, and it keeps what begins with what
(`encode_prefix_iff`), because the bytes of a text are read as its characters whatever follows. A
text comes before every longer one that begins with it (`eq_or_lt_of_prefix`).
-/
import ClusterConsole.Proofs.Text.Utf8

namespace ClusterConsole

/-! ## Lexicographic order -/

section Lists

variable {α β : Type} [Ord α] [Ord β]

theorem compare_append_left [Std.ReflOrd α] (as bs cs : List α) :
    compare (as ++ bs) (as ++ cs) = compare bs cs := by
  induction as with
  | nil => rfl
  | cons a as ih =>
    rw [List.cons_append, List.cons_append, List.compare_cons_cons, Std.compare_self, ih]
    rfl

theorem eq_or_lt_of_prefix [Std.ReflOrd α] {as bs : List α} (h : as <+: bs) :
    as = bs ∨ compare as bs = .lt := by
  obtain ⟨cs, rfl⟩ := h
  cases cs with
  | nil => exact Or.inl (List.append_nil as).symm
  | cons c cs =>
    have hend := compare_append_left as [] (c :: cs)
    rw [List.append_nil, List.compare_nil_cons] at hend
    exact Or.inr hend

/-- Elements may be replaced by others that compare in the same way. -/
theorem compare_map {f : α → β} (hf : ∀ a b, compare (f a) (f b) = compare a b) (as bs : List α) :
    compare (as.map f) (bs.map f) = compare as bs := by
  induction as generalizing bs with
  | nil => cases bs <;> rfl
  | cons a as ih =>
    cases bs with
    | nil => rfl
    | cons b bs =>
      rw [List.map_cons, List.map_cons, List.compare_cons_cons, List.compare_cons_cons, hf, ih]

end Lists

namespace Utf8

/-! ## Bytes -/

/-- Bytes in ascending order, or the same byte and then what is in ascending order. -/
theorem compare_bytes {m n : Nat} {bs bs' : Bytes} (hle : m ≤ n) (hn : n < 256)
    (heq : m = n → compare bs bs' = .lt) :
    compare (UInt8.ofNat m :: bs) (UInt8.ofNat n :: bs') = .lt := by
  rw [List.compare_cons_cons]
  rcases Nat.lt_or_eq_of_le hle with hlt | rfl
  · have hbyte : UInt8.ofNat m < UInt8.ofNat n := by
      rw [UInt8.lt_iff_toNat_lt, toNat_ofNat_of_lt (by omega), toNat_ofNat_of_lt hn]
      exact hlt
    rw [Std.compare_eq_lt.2 hbyte]
    rfl
  · rw [Std.compare_self, heq rfl]
    rfl

/-- The bytes of a character compare as its code point does. -/
theorem compare_encodeChar {c d : Char} (h : c < d) (bs bs' : Bytes) :
    compare (String.utf8EncodeChar c ++ bs) (String.utf8EncodeChar d ++ bs') = .lt := by
  have hc := val_bounds c
  have hd := val_bounds d
  have hlt : c.val.toNat < d.val.toNat := h
  unfold String.utf8EncodeChar
  generalize c.val.toNat = v at hc hlt
  generalize d.val.toNat = w at hd hlt
  simp only
  -- a character of more bytes has a higher lead byte; of characters with as many bytes and the same
  -- lead byte, the following bytes decide
  split_ifs
  all_goals
    simp only [List.cons_append, List.nil_append]
    refine compare_bytes (by omega) (by omega) fun h1 => ?_
  any_goals omega
  · exact compare_bytes (by omega) (by omega) fun h2 => by omega
  · refine compare_bytes (by omega) (by omega) fun h2 => ?_
    exact compare_bytes (by omega) (by omega) fun h3 => by omega
  · refine compare_bytes (by omega) (by omega) fun h2 => ?_
    refine compare_bytes (by omega) (by omega) fun h3 => ?_
    exact compare_bytes (by omega) (by omega) fun h4 => by omega

theorem compare_encode (t u : Text) : compare (encode t) (encode u) = compare t u := by
  induction t generalizing u with
  | nil =>
    cases hu : encode u with
    | nil => rw [encode_eq_nil_iff.1 hu]; rfl
    | cons b bs =>
      cases u with
      | nil => cases hu
      | cons d u => rfl
  | cons c t ih =>
    cases u with
    | nil =>
      cases hc : encode (c :: t) with
      | nil => cases encode_eq_nil_iff.1 hc
      | cons b bs => rfl
    | cons d u =>
      rw [encode_cons, encode_cons, List.compare_cons_cons]
      cases hcd : compare c d with
      | lt => exact compare_encodeChar (compareOfLessAndEq_eq_lt.1 hcd) _ _
      | eq =>
        obtain rfl := Std.LawfulEqCmp.eq_of_compare hcd
        rw [compare_append_left, ih]
        rfl
      | gt =>
        have hdc : compare d c = .lt := Std.OrientedCmp.lt_of_gt hcd
        exact Std.OrientedCmp.gt_of_lt (compare_encodeChar (compareOfLessAndEq_eq_lt.1 hdc) _ _)

theorem encode_prefix_iff {t u : Text} : encode t <+: encode u ↔ t <+: u := by
  constructor
  · rintro ⟨bs, h⟩
    have hpieces := congrArg pieces h
    rw [pieces_encode_append, pieces_encode] at hpieces
    obtain ⟨t', r, rfl, ht, -⟩ := List.map_eq_append_iff.1 hpieces.symm
    have hinj : Function.Injective Piece.char := fun c d h => Piece.char.inj h
    rw [List.map_injective_iff.2 hinj ht]
    exact List.prefix_append t r
  · rintro ⟨r, rfl⟩
    exact ⟨encode r, (encode_append t r).symm⟩

end Utf8

end ClusterConsole
