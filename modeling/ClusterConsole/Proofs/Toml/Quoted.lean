/-
Texts in quotes are read back as they were written (`readQuoted_writeQuoted`), whatever characters
they hold and in whichever of the four ways they are written.

Between triple quotes the text may end in quotes of its own, which stand right in front of the
closing ones. So a body is not read character by character up to the mark: where nothing but quotes
is left of it, they are taken with the mark (`readClosing_append`). Writing keeps three quotes from
standing together, either by escaping the third one (`not_triple_writeBasic`) or because such texts
are written in another way (`clean_of_literalLines`).
-/
import ClusterConsole.Toml.Quoted
import Mathlib.Tactic

namespace ClusterConsole.Toml

/-! ## Characters -/

theorem isPlain_iff {c : Char} : isPlain c = true ↔ c = '\t' ∨ 0x20 ≤ c.toNat ∧ c.toNat ≠ 0x7F := by
  simp [isPlain]

theorem ne_of_isPlain {c d : Char} (h : isPlain c = true) (hd : isPlain d = false) : c ≠ d := by
  rintro rfl
  rw [h] at hd
  cases hd

/-- Every character from 128 on is plain. -/
theorem toNat_lt_of_not_isPlain {c : Char} (h : ¬ isPlain c = true) : c.toNat < 0x80 := by
  rw [isPlain_iff] at h
  push Not at h
  by_contra hle
  have := h.2 (by omega)
  omega

/-- No quote stands in front of the text. -/
def Unquoted (t : Text) : Prop := ∀ c ∈ t.head?, c ≠ '"' ∧ c ≠ '\''

theorem not_isPrefix_of_head? {c : Char} {u t : Text} (h : t.head? ≠ some c) :
    ¬ (c :: u) <+: t := by
  rintro ⟨v, rfl⟩
  exact h rfl

/-! ## Escapes -/

/-- A reader that puts characters, and what escapes stand for, in front of what it reads after
them. -/
structure Unescapes (read : Text → Option (Text × Text)) : Prop where
  plain : ∀ {c : Char}, isPlain c = true → c ≠ '"' → c ≠ '\\' → ∀ rest,
    read (c :: rest) = (read rest).map fun r => (c :: r.1, r.2)
  escape : ∀ {e c : Char}, escapedBy e = some c → ∀ rest,
    read ('\\' :: e :: rest) = (read rest).map fun r => (c :: r.1, r.2)
  codePoint : ∀ {a b c d char : Char}, codePoint? [a, b, c, d] = some char → ∀ rest,
    read ('\\' :: 'u' :: a :: b :: c :: d :: rest) = (read rest).map fun r => (char :: r.1, r.2)

theorem escapedBy_ne {e c : Char} (h : escapedBy e = some c) :
    e ≠ 'u' ∧ e ≠ 'U' ∧ e ≠ '\n' ∧ e ≠ '\r' ∧ e ≠ ' ' ∧ e ≠ '\t' := by
  refine ⟨?_, ?_, ?_, ?_, ?_, ?_⟩ <;> rintro rfl <;> cases h

theorem endsLine_of_escapedBy {e c : Char} (h : escapedBy e = some c) (rest : Text) :
    endsLine (e :: rest) = false := by
  obtain ⟨-, -, hn, hr, hs, ht⟩ := escapedBy_ne h
  unfold endsLine
  rw [List.dropWhile_cons_of_neg (by simp [hs, ht])]
  split
  · rename_i heq
    exact absurd (List.cons.inj heq).1 hn
  · rename_i heq
    exact absurd (List.cons.inj heq).1 hr
  · rfl

theorem unescapes_readBasic : Unescapes readBasic where
  plain hc hq hs rest := by
    rw [readBasic]
    · simp [hc, hs, Option.map_eq_bind]
    · exact hq
    all_goals simp [hs]
  escape he rest := by
    obtain ⟨hu, hU, -⟩ := escapedBy_ne he
    rw [readBasic]
    · simp [he, Option.map_eq_bind]
    all_goals simp [hu, hU]
  codePoint hd rest := by
    rw [readBasic]
    simp [hd, Option.map_eq_bind]

theorem readClosing_of_ne {q c : Char} (h : c ≠ q) (rest : Text) :
    readClosing q (c :: rest) = none := by
  unfold readClosing
  split <;> simp_all

theorem readBasicLines_cons {c : Char} (hr : c ≠ '\r') (hs : c ≠ '\\') (rest : Text) :
    readBasicLines false (c :: rest) = match readClosing '"' (c :: rest) with
      | some closing => some closing
      | none => if isPlain c || c == '\n' then
          (readBasicLines false rest).map fun r => (c :: r.1, r.2)
        else none := by
  rw [readBasicLines]
  · cases readClosing '"' (c :: rest) <;> simp [hs]
  all_goals simp [hr, hs]

theorem unescapes_readBasicLines : Unescapes (readBasicLines false) where
  plain hc hq hs rest := by
    rw [readBasicLines_cons (ne_of_isPlain hc (by decide)) hs, readClosing_of_ne hq]
    simp [hc]
  escape he rest := by
    obtain ⟨hu, hU, -⟩ := escapedBy_ne he
    rw [readBasicLines]
    · simp [endsLine_of_escapedBy he, he, Option.map_eq_bind]
    all_goals simp [hu, hU]
  codePoint hd rest := by
    rw [readBasicLines]
    simp [hd, Option.map_eq_bind]

/-- The code point of a character below 128 is written in four digits. -/
theorem exists_writeCodePoint : ∀ n < 0x80, ∃ a b c d, writeCodePoint n = ['\\', 'u', a, b, c, d] ∧
    codePoint? [a, b, c, d] = some (Char.ofNat n) := by
  have hall : ∀ n < 0x80, ((writeCodePoint n).take 2 == ['\\', 'u'] &&
      ((writeCodePoint n).drop 2).length == 4 &&
      codePoint? ((writeCodePoint n).drop 2) == some (Char.ofNat n)) = true := by decide +kernel
  intro n hn
  have h := hall n hn
  simp only [Bool.and_eq_true, beq_iff_eq] at h
  obtain ⟨⟨htake, hlength⟩, hcode⟩ := h
  obtain ⟨a, b, c, d, hdigits⟩ := List.length_eq_four.1 hlength
  refine ⟨a, b, c, d, ?_, hdigits ▸ hcode⟩
  rw [← List.take_append_drop 2 (writeCodePoint n), htake, hdigits]
  rfl

/-- A character is read as it was written. -/
theorem Unescapes.writeEscaped {read : Text → Option (Text × Text)} (h : Unescapes read) {c : Char}
    (hq : c ≠ '"') (rest : Text) :
    read (writeEscaped c ++ rest) = (read rest).map fun r => (c :: r.1, r.2) := by
  unfold Toml.writeEscaped
  split_ifs with hb ht hn hf hr hs hplain
  · exact h.escape (by rw [hb]; rfl) rest
  · exact h.escape (by rw [ht]; rfl) rest
  · exact h.escape (by rw [hn]; rfl) rest
  · exact h.escape (by rw [hf]; rfl) rest
  · exact h.escape (by rw [hr]; rfl) rest
  · exact h.escape (by rw [hs]; rfl) rest
  · exact h.plain hplain hq hs rest
  · obtain ⟨a, b, x, y, hwrite, hcode⟩ :=
      exists_writeCodePoint c.toNat (toNat_lt_of_not_isPlain hplain)
    rw [hwrite]
    rw [Char.ofNat_toNat] at hcode
    exact h.codePoint hcode rest

/-- What is written for a character other than a quote begins neither with a quote nor with an end
of a line. -/
theorem exists_writeEscaped (c : Char) : ∃ d ds, writeEscaped c = d :: ds ∧
    (c ≠ '"' → d ≠ '"') ∧ d ≠ '\n' ∧ d ≠ '\r' := by
  unfold writeEscaped writeCodePoint
  split_ifs with hb ht hn hf hr hs hplain
  on_goal 7 => exact ⟨c, [], rfl, id, hn, hr⟩
  all_goals exact ⟨'\\', _, rfl, fun _ => by decide, by decide, by decide⟩

/-! ## One line -/

theorem readBasic_writeBasic (n : Nat) (t rest : Text) :
    readBasic (writeBasic false 0 n t ++ '"' :: rest) = some (t, rest) := by
  induction t generalizing n with
  | nil => rw [writeBasic, List.nil_append, readBasic]
  | cons c t ih =>
    unfold writeBasic
    by_cases hc : c = '"'
    · rw [if_pos hc, if_neg (Nat.not_lt_zero n), List.cons_append, List.cons_append,
        unescapes_readBasic.escape (c := '"') rfl, ih, hc]
      rfl
    · rw [if_neg hc, if_neg (by simp), List.append_assoc, unescapes_readBasic.writeEscaped hc, ih]
      rfl

theorem readLiteral_append {t : Text} (h : ∀ c ∈ t, isPlain c = true ∧ c ≠ '\'') (rest : Text) :
    readLiteral (t ++ '\'' :: rest) = some (t, rest) := by
  induction t with
  | nil => rw [List.nil_append, readLiteral]
  | cons c t ih =>
    obtain ⟨⟨hplain, hq⟩, ht⟩ := List.forall_mem_cons.1 h
    rw [List.cons_append, readLiteral, if_pos hplain, ih ht]
    · rfl
    · exact hq

/-! ## Several lines -/

/-- Where nothing but quotes is left of a body, they are taken with the closing ones. -/
theorem readClosing_append {q : Char} {body rest : Text} (hbody : ¬ [q, q, q] <+: body)
    (hrest : rest.head? ≠ some q) :
    readClosing q (body ++ q :: q :: q :: rest) =
      if body.all (· == q) then some (body, rest) else none := by
  rcases body with _ | ⟨a, _ | ⟨b, _ | ⟨c, body⟩⟩⟩
  · rcases rest with _ | ⟨d, _ | ⟨e, rest⟩⟩ <;> simp_all [readClosing]
  · rcases rest with _ | ⟨d, rest⟩ <;> by_cases ha : a = q <;> simp_all [readClosing]
  · by_cases ha : a = q <;> by_cases hb : b = q <;> rcases rest with _ | ⟨d, rest⟩ <;>
      simp_all [readClosing]
  · have hnot : ¬ (a = q ∧ b = q ∧ c = q) := by
      rintro ⟨rfl, rfl, rfl⟩
      exact hbody ⟨body, rfl⟩
    have hall : ((a :: b :: c :: body).all (· == q)) = false := by
      simp only [List.all_cons, Bool.and_eq_false_iff, beq_eq_false_iff_ne]
      tauto
    rw [hall]
    rcases body with _ | ⟨d, _ | ⟨e, body⟩⟩ <;> simp [readClosing, hnot]

theorem le_longestRun (q : Char) (n : Nat) (t : Text) : n ≤ longestRun q n t := by
  induction t generalizing n with
  | nil => exact Nat.le_refl n
  | cons c t ih =>
    unfold longestRun
    split_ifs
    · exact Nat.le_of_succ_le (ih (n + 1))
    · exact Nat.le_max_left n _

theorem not_triple_of_longestRun {q : Char} {n : Nat} {t : Text} (h : longestRun q n t ≤ 2) :
    ¬ [q, q, q] <+: t := by
  rintro ⟨u, rfl⟩
  have hle := le_longestRun q (n + 1 + 1 + 1) u
  simp only [List.cons_append, List.nil_append, longestRun, if_true] at h
  omega

theorem exists_longestRun_tail {q c : Char} {n : Nat} {t : Text} (h : longestRun q n (c :: t) ≤ 2) :
    ∃ n, longestRun q n t ≤ 2 := by
  unfold longestRun at h
  split_ifs at h
  · exact ⟨n + 1, h⟩
  · exact ⟨0, le_trans (Nat.le_max_right _ _) h⟩

theorem readLiteralLines_append {n : Nat} {t rest : Text}
    (hclean : ∀ c ∈ t, isPlain c = true ∨ c = '\n') (hrun : longestRun '\'' n t ≤ 2)
    (hrest : rest.head? ≠ some '\'') :
    readLiteralLines (t ++ '\'' :: '\'' :: '\'' :: rest) = some (t, rest) := by
  induction t generalizing n with
  | nil =>
    have hclosing := readClosing_append (not_triple_of_longestRun hrun) hrest
    rw [List.nil_append] at hclosing ⊢
    rw [readLiteralLines, hclosing]
    · rfl
    · simp
  | cons c t ih =>
    obtain ⟨hc, ht⟩ := List.forall_mem_cons.1 hclean
    have hclosing := readClosing_append (not_triple_of_longestRun hrun) hrest
    obtain ⟨m, hm⟩ := exists_longestRun_tail hrun
    have hreturn : c ≠ '\r' := by
      rintro rfl
      revert hc
      decide
    rw [List.cons_append] at hclosing ⊢
    rw [readLiteralLines]
    · by_cases hquotes : ((c :: t).all (· == '\'')) = true
      · rw [hclosing, if_pos hquotes]
      · rw [hclosing, if_neg hquotes, ih ht hm]
        rcases hc with hc | hc <;> simp [hc]
    · simp [hreturn]

/-! ### Written with escapes -/

theorem head?_writeBasic {lines : Bool} {allowed n : Nat} {t : Text}
    (h : t.head? = some '"' → allowed ≤ n) : (writeBasic lines allowed n t).head? ≠ some '"' := by
  cases t with
  | nil => simp [writeBasic]
  | cons c t =>
    unfold writeBasic
    by_cases hc : c = '"'
    · rw [if_pos hc, if_neg (Nat.not_lt.2 (h (congrArg some hc)))]
      simp
    · rw [if_neg hc]
      split_ifs
      · simp
      · obtain ⟨d, ds, hwrite, hd, -⟩ := exists_writeEscaped c
        rw [hwrite]
        simpa using hd hc

theorem le_of_replicate_prefix {lines : Bool} {allowed n k : Nat} {t : Text} (hn : n ≤ allowed)
    (h : List.replicate k '"' <+: writeBasic lines allowed n t) : n + k ≤ allowed := by
  induction k generalizing n t with
  | zero => exact hn
  | succ k ih =>
    rw [List.replicate_succ] at h
    cases t with
    | nil => simp [writeBasic] at h
    | cons c t =>
      by_cases hquote : c = '"' ∧ n < allowed
      · unfold writeBasic at h
        rw [if_pos hquote.1, if_pos hquote.2, List.cons_prefix_cons] at h
        have := ih hquote.2 h.2
        omega
      · refine absurd h (not_isPrefix_of_head? (head?_writeBasic ?_))
        rintro ⟨⟩
        exact Nat.not_lt.1 fun hlt => hquote ⟨rfl, hlt⟩

theorem not_triple_writeBasic (lines : Bool) {n : Nat} (hn : n ≤ 2) (t : Text) :
    ¬ ['"', '"', '"'] <+: writeBasic lines 2 n t := by
  intro h
  have := le_of_replicate_prefix (k := 3) hn h
  omega

theorem writeBasic_of_quotes {lines : Bool} {allowed n : Nat} {t : Text}
    (h : (writeBasic lines allowed n t).all (· == '"') = true) :
    writeBasic lines allowed n t = t := by
  induction t generalizing n with
  | nil => rw [writeBasic]
  | cons c t ih =>
    by_cases hquote : c = '"' ∧ n < allowed
    · unfold writeBasic at h ⊢
      rw [if_pos hquote.1, if_pos hquote.2, List.all_cons, Bool.and_eq_true] at h
      rw [if_pos hquote.1, if_pos hquote.2, ih h.2, hquote.1]
    · have hhead : (writeBasic lines allowed n (c :: t)).head? ≠ some '"' := by
        refine head?_writeBasic ?_
        rintro ⟨⟩
        exact Nat.not_lt.1 fun hlt => hquote ⟨rfl, hlt⟩
      -- only quotes are written, so nothing is
      cases hwrite : writeBasic lines allowed n (c :: t) with
      | nil =>
        unfold writeBasic at hwrite
        obtain ⟨d, ds, hescaped, -⟩ := exists_writeEscaped c
        rw [hescaped] at hwrite
        split_ifs at hwrite
        cases hwrite
      | cons d ds =>
        rw [hwrite] at h hhead
        rw [List.all_cons, Bool.and_eq_true, beq_iff_eq] at h
        exact absurd (congrArg some h.1) hhead

theorem readBasicLines_writeBasic {n : Nat} (hn : n ≤ 2) (t : Text) {rest : Text}
    (hrest : rest.head? ≠ some '"') :
    readBasicLines false (writeBasic true 2 n t ++ '"' :: '"' :: '"' :: rest) = some (t, rest) := by
  induction t generalizing n with
  | nil =>
    have hclosing := readClosing_append (not_triple_writeBasic true hn []) hrest
    rw [writeBasic, List.nil_append] at hclosing ⊢
    rw [readBasicLines_cons (by decide) (by decide), hclosing]
    rfl
  | cons c t ih =>
    have hclosing := readClosing_append (not_triple_writeBasic true hn (c :: t)) hrest
    have hquotes := @writeBasic_of_quotes true 2 n (c :: t)
    unfold writeBasic at hclosing hquotes ⊢
    by_cases hc : c = '"'
    · subst hc
      by_cases hlt : n < 2
      · rw [if_pos rfl, if_pos hlt] at hclosing hquotes ⊢
        rw [List.cons_append] at hclosing ⊢
        rw [readBasicLines_cons (by decide) (by decide), hclosing]
        by_cases hall : ('"' :: writeBasic true 2 (n + 1) t).all (· == '"') = true
        · rw [if_pos hall, hquotes hall]
        · rw [if_neg hall, ih hlt]
          rfl
      · rw [if_pos rfl, if_neg hlt, List.cons_append, List.cons_append,
          unescapes_readBasicLines.escape (c := '"') rfl, ih (Nat.zero_le 2)]
        rfl
    · rw [if_neg hc]
      by_cases hline : c = '\n'
      · subst hline
        rw [if_pos (by simp), List.cons_append, readBasicLines_cons (by decide) (by decide),
          readClosing_of_ne (by decide), ih (Nat.zero_le 2)]
        rfl
      · rw [if_neg (by simpa using hline), List.append_assoc,
          unescapes_readBasicLines.writeEscaped hc, ih (Nat.zero_le 2)]
        rfl

/-! ## Any way of writing -/

theorem plain_of_literal {t : Text} (h : QuoteStyle.of t = .literal) :
    ∀ c ∈ t, isPlain c = true ∧ c ≠ '\'' := by
  unfold QuoteStyle.of at h
  extract_lets clean oneLine unescaped at h
  split_ifs at h with hbasic hliteral
  simp only [clean, oneLine, Bool.and_eq_true, List.all_eq_true, Bool.or_eq_true, beq_iff_eq,
    Bool.not_eq_true', List.contains_eq_mem, decide_eq_false_iff_not] at hliteral
  obtain ⟨⟨hclean, hline⟩, hquote⟩ := hliteral
  intro c hc
  refine ⟨(hclean c hc).resolve_right ?_, ?_⟩
  · rintro rfl
    exact hline hc
  · rintro rfl
    exact hquote hc

theorem clean_of_literalLines {t : Text} (h : QuoteStyle.of t = .literalLines) :
    (∀ c ∈ t, isPlain c = true ∨ c = '\n') ∧ longestRun '\'' 0 t ≤ 2 := by
  unfold QuoteStyle.of at h
  extract_lets clean oneLine unescaped at h
  split_ifs at h with _ _ _ hlines
  simpa [clean] using hlines

/-- Only one quote is taken off the front where no two of the same kind follow it. -/
theorem readQuoted_basic {body : Text} (h : ¬ ['"', '"'] <+: body) :
    readQuoted ('"' :: body) = readBasic body := by
  rw [readQuoted]
  rintro u rfl
  exact h ⟨u, rfl⟩

theorem readQuoted_literal {body : Text} (h : ¬ ['\'', '\''] <+: body) :
    readQuoted ('\'' :: body) = readLiteral body := by
  rw [readQuoted]
  rintro u rfl
  exact h ⟨u, rfl⟩

/-- No two quotes stand in front of what begins with a body without a quote at its front. -/
theorem no_pair_begins {q : Char} {body rest : Text} (hbody : body.head? ≠ some q)
    (hrest : rest.head? ≠ some q) : ¬ [q, q] <+: body ++ q :: rest := by
  cases body with
  | nil =>
    rw [List.nil_append, List.cons_prefix_cons]
    exact fun h => not_isPrefix_of_head? hrest h.2
  | cons c body => exact not_isPrefix_of_head? hbody

/-! ### Line ends -/

theorem plain_writeCodePoint : ∀ n < 0x80, (writeCodePoint n).all isPlain = true := by
  decide +kernel

theorem plain_writeEscaped (c : Char) : (writeEscaped c).all isPlain = true := by
  unfold writeEscaped
  split_ifs with hb ht hn hf hr hs hplain
  on_goal 7 => simpa using hplain
  on_goal 7 => exact plain_writeCodePoint c.toNat (toNat_lt_of_not_isPlain hplain)
  all_goals rfl

/-- What is written holds no control characters but line ends, and these only where the text has
some. -/
theorem clean_writeBasic (lines : Bool) (allowed n : Nat) (t : Text) :
    ∀ d ∈ writeBasic lines allowed n t, isPlain d = true ∨ d = '\n' ∧ '\n' ∈ t := by
  have hquote : isPlain '"' = true ∧ isPlain '\\' = true := by decide
  induction t generalizing n with
  | nil => simp [writeBasic]
  | cons c t ih =>
    intro d hd
    have htail : ∀ m, d ∈ writeBasic lines allowed m t →
        isPlain d = true ∨ d = '\n' ∧ '\n' ∈ c :: t := fun m h =>
      (ih m d h).imp_right fun h => ⟨h.1, List.mem_cons_of_mem c h.2⟩
    unfold writeBasic at hd
    split_ifs at hd with hc hlt hline
    · rcases List.mem_cons.1 hd with rfl | hd
      · exact .inl hquote.1
      · exact htail _ hd
    · rcases List.mem_cons.1 hd with rfl | hd
      · exact .inl hquote.2
      · rcases List.mem_cons.1 hd with rfl | hd
        · exact .inl hquote.1
        · exact htail _ hd
    · rcases List.mem_cons.1 hd with rfl | hd
      · simp only [Bool.and_eq_true, beq_iff_eq] at hline
        exact .inr ⟨rfl, hline.2 ▸ List.mem_cons_self⟩
      · exact htail _ hd
    · rcases List.mem_append.1 hd with hd | hd
      · exact .inl (List.all_eq_true.1 (plain_writeEscaped c) d hd)
      · exact htail _ hd

/-- The line end that is put in front of a text with line ends is the one that is dropped. -/
theorem dropLineEnd_append {q : Char} {t inside tail : Text} (hq : isPlain q = true)
    (h : ∀ d ∈ inside, isPlain d = true ∨ d = '\n' ∧ '\n' ∈ t) :
    dropLineEnd ((if t.contains '\n' then ['\n'] else []) ++ (inside ++ q :: tail)) =
      inside ++ q :: tail := by
  by_cases hline : '\n' ∈ t
  · rw [if_pos (by simpa using hline)]
    rfl
  · have hplain : ∀ d ∈ (inside ++ q :: tail).head?, isPlain d = true := by
      cases inside with
      | nil => simpa using hq
      | cons d inside =>
        simpa using (h d List.mem_cons_self).resolve_right fun h => hline h.2
    rw [if_neg (by simpa using hline), List.nil_append]
    unfold dropLineEnd
    split
    · rename_i heq
      exact absurd (hplain '\n' (by rw [heq]; rfl)) (by decide)
    · rename_i heq
      exact absurd (hplain '\r' (by rw [heq]; rfl)) (by decide)
    · rfl

theorem betweenTriple_append (q : Char) (t inside rest : Text) :
    betweenTriple q t inside ++ rest = q :: q :: q ::
      ((if t.contains '\n' then ['\n'] else []) ++ (inside ++ q :: q :: q :: rest)) := by
  simp [betweenTriple, List.replicate]

/-! ### Quotes -/

/-- A text in quotes is read back, with what follows it. -/
theorem readQuoted_writeQuoted (t : Text) {rest : Text} (h : Unquoted rest) :
    readQuoted (writeQuoted t ++ rest) = some (t, rest) := by
  have hbasic : rest.head? ≠ some '"' := fun heq => (h _ heq).1 rfl
  have hliteral : rest.head? ≠ some '\'' := fun heq => (h _ heq).2 rfl
  unfold writeQuoted
  split
  case h_1 =>
    have hhead : (writeBasic false 0 0 t).head? ≠ some '"' :=
      head?_writeBasic fun _ => Nat.le_refl 0
    rw [List.cons_append, List.cons_append, List.append_assoc, List.singleton_append,
      readQuoted_basic (no_pair_begins hhead hbasic), readBasic_writeBasic]
  case h_2 hstyle =>
    have hplain := plain_of_literal hstyle
    have hhead : t.head? ≠ some '\'' := fun heq => (hplain _ (List.mem_of_head? heq)).2 rfl
    rw [List.cons_append, List.cons_append, List.append_assoc, List.singleton_append,
      readQuoted_literal (no_pair_begins hhead hliteral), readLiteral_append hplain]
  case h_3 =>
    rw [betweenTriple_append, readQuoted,
      dropLineEnd_append (q := '"') rfl (clean_writeBasic true 2 0 t),
      readBasicLines_writeBasic (Nat.zero_le 2) t hbasic]
  case h_4 hstyle =>
    obtain ⟨hclean, hrun⟩ := clean_of_literalLines hstyle
    have hinside : ∀ d ∈ t, isPlain d = true ∨ d = '\n' ∧ '\n' ∈ t := fun d hd =>
      (hclean d hd).imp_right fun heq => ⟨heq, heq ▸ hd⟩
    rw [betweenTriple_append, readQuoted, dropLineEnd_append (q := '\'') rfl hinside,
      readLiteralLines_append hclean hrun hliteral]

/-! ### Carriage returns -/

theorem return_not_mem_writeBasic (lines : Bool) (allowed n : Nat) (t : Text) :
    '\r' ∉ writeBasic lines allowed n t := by
  intro hmem
  rcases clean_writeBasic lines allowed n t _ hmem with h | ⟨h, -⟩ <;> revert h <;> decide

theorem return_not_mem_of_plain {t : Text} (h : ∀ c ∈ t, isPlain c = true ∨ c = '\n') :
    '\r' ∉ t := fun hmem => absurd (h _ hmem) (by decide)

/-- A text in quotes is written without carriage returns. -/
theorem return_not_mem_writeQuoted (t : Text) : '\r' ∉ writeQuoted t := by
  unfold writeQuoted
  split
  case h_1 => simpa using return_not_mem_writeBasic false 0 0 t
  case h_2 hstyle =>
    simpa using return_not_mem_of_plain fun c hc => .inl (plain_of_literal hstyle c hc).1
  case h_3 =>
    unfold betweenTriple
    split_ifs <;> simpa using return_not_mem_writeBasic true 2 0 t
  case h_4 hstyle =>
    have ht := return_not_mem_of_plain (clean_of_literalLines hstyle).1
    unfold betweenTriple
    split_ifs <;> simpa using ht

theorem exists_writeQuoted (t : Text) :
    ∃ q body, writeQuoted t = q :: body ∧ (q = '"' ∨ q = '\'') := by
  unfold writeQuoted betweenTriple
  split
  · exact ⟨_, _, rfl, .inl rfl⟩
  · exact ⟨_, _, rfl, .inr rfl⟩
  · exact ⟨_, _, rfl, .inl rfl⟩
  · exact ⟨_, _, rfl, .inr rfl⟩

end ClusterConsole.Toml
