/-
Blanks between tokens and around them. Behind a line that can be cut into tokens a blank brings the
cursor back to where it started, but for the tokens before it. So two lines with a blank between them
are cut one after the other (`tokenize_joined`).

Blanks at the ends of a line separate nothing, and trimming takes them away. Only a blank behind a
backslash that escapes it belongs to a token, and trimming takes that away as well (`trims`). Whether
a backslash escapes can be told from the backslashes directly before it (`escape_iff_odd`).
-/
import ClusterConsole.Line
import ClusterConsole.Proofs.Text.Blank
import ClusterConsole.Proofs.Token.Cursor

namespace ClusterConsole.Token

open Text

variable {a b t u blanks : Text} {w c : Char} {ta ts : List Text} {s : Cursor}

/-! ## A blank between two lines -/

theorem tokenize_append (h : tokenize a = .ok ta) (hw : isBlank w = true) (b : Text) :
    tokenize (a ++ w :: b) =
      ((tokenize b).mapError (LexicalError.behind (a.length + 1))).map (ta ++ ·) := by
  obtain ⟨⟨mode, bs, tokens⟩, hs, hf⟩ := exists_read_of_tokenize h
  obtain ⟨rfl, rfl⟩ := Cursor.finish_eq_ok.1 hf
  have hback : Cursor.step ⟨.run none, bs, tokens⟩ w =
      .ok (Cursor.start.after (Cursor.flushed ⟨.run none, bs, tokens⟩)) := by
    rw [Cursor.step_blank hw, Cursor.after, Cursor.start, List.append_nil]
  rw [tokenize_eq, tokenize_eq, Cursor.readAll_append hs, Cursor.readAll_cons hback,
    Cursor.readAll_after, Nat.add_assoc, Cursor.readAll_from]

/-- What two lines with a blank between them are cut into. -/
structure Joined (a : Text) (w : Char) (b : Text) : Prop where
  /-- The tokens of the one, and then those of the other. -/
  tokens : ∀ ta tb, tokenize a = .ok ta → tokenize b = .ok tb →
    tokenize (a ++ w :: b) = .ok (ta ++ tb)
  /-- What is wrong with the second line is wrong at its place behind the first one. -/
  second : ∀ ta e, tokenize a = .ok ta → tokenize b = .error e →
    tokenize (a ++ w :: b) = .error ⟨e.fault, e.offset + a.length + 1⟩
  /-- A character that makes no escape in the first line stops both. -/
  first : ∀ e c, tokenize a = .error e → e.fault = .illegalEscape c ∨ e.fault = .invalidHexDigit c →
    tokenize (a ++ w :: b) = .error e

/-- Two lines with a blank between them are cut into tokens one after the other. -/
theorem tokenize_joined (hw : isBlank w = true) (a b : Text) : Joined a w b := by
  refine ⟨?_, ?_, ?_⟩
  · intro ta tb ha hb
    rw [tokenize_append ha hw, hb]
    rfl
  · intro ta e ha hb
    rw [tokenize_append ha hw, hb]
    rfl
  · intro e c ha hfault
    rcases tokenize_eq_error ha with ⟨u, d, v, s, rfl, hu, hd, hn⟩ | ⟨s, -, hf, -⟩
    · rw [List.append_assoc, List.cons_append, tokenize_of_step_error hu hd, ← hn]
    · exact absurd hfault (Cursor.not_character_of_finish hf)

/-- A quoted token and one with an escape before an ideographic space; behind it a line that fails. -/
theorem tokenize_joined_fails :
    isBlank '\u3000' = true ∧
      tokenize "'é' a\\ " = .ok ["é", "a "] ∧ tokenize "x\\q" = .error ⟨.illegalEscape 'q', 2⟩ ∧
      tokenize "'é' a\\ \u3000x\\q" = .error ⟨.illegalEscape 'q', 10⟩ := by
  refine ⟨by decide, by decide +kernel, by decide +kernel, ?_⟩
  exact (tokenize_joined (w := '\u3000') (by decide) "'é' a\\ " "x\\q").second ["é", "a "]
    ⟨.illegalEscape 'q', 2⟩ (by decide +kernel) (by decide +kernel)

/-! ## Blanks at the ends of a line -/

theorem tokenize_blanks_append (h : ∀ c ∈ blanks, isBlank c = true) (t : Text) :
    tokenize (blanks ++ t) = (tokenize t).mapError (LexicalError.behind blanks.length) := by
  induction blanks with
  | nil =>
    rw [List.nil_append]
    cases tokenize t <;> rfl
  | cons w blanks ih =>
    obtain ⟨hw, hblanks⟩ := List.forall_mem_cons.1 h
    have hnil : tokenize [] = .ok [] := rfl
    have hcons := tokenize_append hnil hw (blanks ++ t)
    rw [List.nil_append, ih hblanks] at hcons
    rw [List.cons_append, hcons]
    cases tokenize t <;> rfl

theorem tokenize_append_blanks (h : ∀ c ∈ blanks, isBlank c = true) (ht : tokenize t = .ok ts) :
    tokenize (t ++ blanks) = .ok ts := by
  cases blanks with
  | nil => rw [List.append_nil, ht]
  | cons w blanks =>
    obtain ⟨hw, hblanks⟩ := List.forall_mem_cons.1 h
    have hnone : tokenize blanks = .ok [] := by
      have hnil := tokenize_blanks_append hblanks []
      rw [List.append_nil] at hnil
      exact hnil
    rw [tokenize_append ht hw, hnone]
    simp [Except.map, Except.mapError]

/-- Quotes that are open stay open over blanks. -/
theorem read_blanks_quoted {q : Char} {bs : Bytes} {n : Nat} (h : ∀ c ∈ blanks, isBlank c = true)
    (hq : isQuote q = true) :
    ∃ s', Cursor.read ⟨.run (some q), bs, ts⟩ n blanks = .ok s' ∧ s'.mode = .run (some q) := by
  induction blanks generalizing bs n with
  | nil => exact ⟨_, rfl, rfl⟩
  | cons w blanks ih =>
    obtain ⟨hw, hblanks⟩ := List.forall_mem_cons.1 h
    have hne : w ≠ q := by
      rintro rfl
      rw [isQuote_of_isBlank hw] at hq
      cases hq
    rw [Cursor.read_cons (Cursor.step_inside (ne_backslash_of_isBlank hw) hne)]
    exact ih hblanks

/-! ## Escaped blanks -/

/-- A backslash behind the text escapes what follows it: the text does not end inside an escape. -/
def EscapesBehind (t : Text) : Prop :=
  ∃ s q, Cursor.start.read 0 t = .ok s ∧ s.mode = .run q

/-- The first of the blanks that the line ends with stands directly behind a backslash that escapes
it. -/
def CutsEscape (raw : Text) : Prop :=
  ∃ front c blanks, raw = front ++ '\\' :: c :: blanks ∧ trimEnd raw = front ++ ['\\'] ∧
    EscapesBehind front

/-- The number of backslashes at the end of a text. -/
def backslashes (t : Text) : Nat := (t.reverse.takeWhile (· == '\\')).length

theorem backslashes_concat (t : Text) (c : Char) :
    backslashes (t ++ [c]) = if c = '\\' then backslashes t + 1 else 0 := by
  unfold backslashes
  rw [List.reverse_append, List.reverse_singleton, List.singleton_append, List.takeWhile_cons]
  by_cases hc : c = '\\' <;> simp [hc]

theorem read_concat {s' : Cursor} (h : Cursor.start.read 0 (t ++ [c]) = .ok s') :
    ∃ s, Cursor.start.read 0 t = .ok s ∧ s.step c = .ok s' := by
  rw [Cursor.read_append] at h
  obtain ⟨s, hs, h⟩ := bind_eq_ok.1 h
  refine ⟨s, hs, ?_⟩
  cases hc : s.step c with
  | error f =>
    rw [Cursor.read, hc] at h
    cases h
  | ok s'' =>
    rw [Cursor.read_cons hc] at h
    cases h
    rfl

/-- A cursor is behind a backslash exactly when the backslashes directly before it are odd in number:
they pair up, and none of them is inside an escape by digits. -/
theorem escape_iff_odd (h : Cursor.start.read 0 t = .ok s) :
    (∃ q, s.mode = .escape q) ↔ Odd (backslashes t) := by
  induction t using List.reverseRecOn generalizing s with
  | nil =>
    cases h
    simp [Cursor.start, backslashes]
  | append_singleton t c ih =>
    obtain ⟨s', hs', hstep⟩ := read_concat h
    rw [backslashes_concat]
    by_cases hc : c = '\\'
    · subst hc
      rw [if_pos rfl, Nat.odd_add_one, ← ih hs']
      constructor
      · rintro ⟨q, hq⟩ ⟨q', hq'⟩
        rw [(Cursor.step_eq_escape hstep hq).2] at hq'
        cases hq'
      · intro hnot
        obtain ⟨mode, bs, tokens⟩ := s'
        cases mode with
        | run q =>
          rw [Cursor.step_backslash] at hstep
          cases hstep
          exact ⟨q, rfl⟩
        | escape q => exact absurd ⟨q, rfl⟩ hnot
        | hex q high =>
          rw [Cursor.step_no_digit (by decide)] at hstep
          cases hstep
    · rw [if_neg hc]
      constructor
      · rintro ⟨q, hq⟩
        exact absurd (Cursor.step_eq_escape hstep hq).1 hc
      · intro hodd
        exact absurd hodd (by decide)

theorem hexDigit?_of_isBlank (hc : isBlank c = true) : hexDigit? c = none := by
  have hval : ∀ d d' : Char, d ≤ d' ↔ d.toNat ≤ d'.toNat := fun _ _ => Iff.rfl
  simp only [isBlank, blankRanges, List.any_cons, List.any_nil, Bool.or_false, Bool.or_eq_true,
    Bool.and_eq_true, decide_eq_true_eq] at hc
  rw [hexDigit?, if_neg, if_neg, if_neg] <;> simp [hval] <;> omega

/-- A line without the blanks behind it is cut into the same tokens, or it ends inside an escape
that the first of the blanks completes. -/
theorem tokenize_of_append_blanks (h : ∀ c ∈ blanks, isBlank c = true)
    (ht : tokenize (t ++ blanks) = .ok ts) :
    tokenize t = .ok ts ∨
      blanks ≠ [] ∧ ∃ s q, Cursor.start.read 0 t = .ok s ∧ s.mode = .escape q := by
  obtain ⟨last, hlast, hf⟩ := exists_read_of_tokenize ht
  obtain ⟨hend, -⟩ := Cursor.finish_eq_ok.1 hf
  rw [Cursor.read_append] at hlast
  obtain ⟨s, hs, hlast⟩ := bind_eq_ok.1 hlast
  cases blanks with
  | nil =>
    rw [List.append_nil] at ht
    exact Or.inl ht
  | cons w blanks =>
    obtain ⟨mode, bs, tokens⟩ := s
    cases mode with
    | run q =>
      cases q with
      | none =>
        have hbody : tokenize t = .ok (Cursor.flushed ⟨.run none, bs, tokens⟩) := by
          rw [tokenize_of_read hs, Cursor.finish_eq_ok.2 ⟨rfl, rfl⟩]
          rfl
        have hwhole := tokenize_append_blanks h hbody
        rw [ht] at hwhole
        cases hwhole
        exact Or.inl hbody
      | some q =>
        -- the quotes are still open at the end
        have hq : isQuote q = true := sound_of_read hs q rfl
        obtain ⟨s', hs', hm'⟩ := read_blanks_quoted h hq
        rw [hs'] at hlast
        cases hlast
        rw [hend] at hm'
        cases hm'
    | escape q => exact Or.inr ⟨List.cons_ne_nil _ _, _, q, hs, rfl⟩
    | hex q high =>
      rw [Cursor.read, Cursor.step_no_digit (hexDigit?_of_isBlank (h w List.mem_cons_self))] at hlast
      cases hlast

/-! ## Trimming -/

theorem cutsEscape_iff {raw : Text} :
    CutsEscape raw ↔ trimEnd raw ≠ raw ∧
      ∃ s q, Cursor.start.read 0 (trimEnd raw) = .ok s ∧ s.mode = .escape q := by
  constructor
  · rintro ⟨front, c, blanks, hraw, hend, s, q, hs, hm⟩
    refine ⟨?_, ⟨.escape q, s.bytes, s.tokens⟩, q, ?_, rfl⟩
    · rw [hend, hraw]
      simp
    · obtain ⟨mode, bs, tokens⟩ := s
      cases hm
      rw [hend, Cursor.read_append, hs]
      show Cursor.read _ _ _ = _
      rw [Cursor.read_cons Cursor.step_backslash]
      rfl
  · rintro ⟨hne, s, q, hs, hm⟩
    obtain ⟨blanks, hraw, -⟩ := exists_trimEnd raw
    rcases List.eq_nil_or_concat (trimEnd raw) with hnil | ⟨front, c, hfront⟩
    · rw [hnil] at hs
      cases hs
      cases hm
    · rw [List.concat_eq_append] at hfront
      rw [hfront] at hs
      obtain ⟨s', hs', hstep⟩ := read_concat hs
      obtain ⟨rfl, hrun⟩ := Cursor.step_eq_escape hstep hm
      cases blanks with
      | nil => exact absurd (by rw [List.append_nil] at hraw; exact hraw.symm) hne
      | cons w blanks =>
        refine ⟨front, w, blanks, ?_, hfront, s', q, hs', hrun⟩
        rw [hfront, List.append_assoc] at hraw
        exact hraw

theorem tokenize_trimStart_ok : tokenize (trimStart t) = .ok ts ↔ tokenize t = .ok ts := by
  obtain ⟨blanks, ht, hblanks⟩ := exists_trimStart t
  have h := tokenize_blanks_append hblanks (trimStart t)
  rw [← ht] at h
  rw [h, mapError_eq_ok]

/-- An error at the end of a line is one at the end without the blanks that it begins with. -/
theorem tokenize_trimStart_end {f : Fault} (h : tokenize t = .error ⟨f, t.length⟩) :
    tokenize (trimStart t) = .error ⟨f, (trimStart t).length⟩ := by
  obtain ⟨blanks, ht, hblanks⟩ := exists_trimStart t
  have heq := tokenize_blanks_append hblanks (trimStart t)
  have hlength := congrArg List.length ht
  rw [List.length_append] at hlength
  rw [← ht, h] at heq
  cases htext : tokenize (trimStart t) with
  | ok ts =>
    rw [htext] at heq
    cases heq
  | error e =>
    rw [htext] at heq
    simp only [Except.mapError, LexicalError.behind, Except.error.injEq, LexicalError.mk.injEq] at heq
    obtain ⟨hfault, hoffset⟩ := heq
    have : e.offset = (trimStart t).length := by omega
    rw [← this, hfault]

/-- What trimming makes of the tokens of a line. -/
structure Trims (raw : Text) : Prop where
  /-- The tokens of the trimmed line are those of the line. -/
  kept : ∀ ts, tokenize (Line.ofRaw raw).text = .ok ts → tokenize raw = .ok ts
  /-- The tokens of the line are those of the trimmed line, if no escape is cut. -/
  same : ∀ ts, tokenize raw = .ok ts → ¬ CutsEscape raw →
    tokenize (Line.ofRaw raw).text = .ok ts
  /-- If one is cut, the trimmed line ends inside it. -/
  cut : ∀ ts, tokenize raw = .ok ts → CutsEscape raw →
    tokenize (Line.ofRaw raw).text = .error ⟨.incompleteEscape, (Line.ofRaw raw).text.length⟩
  /-- An escape is cut exactly when there are blanks at the end and an odd number of backslashes
  directly before them. -/
  odd : ∀ ts, tokenize raw = .ok ts →
    (CutsEscape raw ↔ trimEnd raw ≠ raw ∧ Odd (backslashes (trimEnd raw)))

/-- Trimming a line changes its tokens only by cutting an escaped blank at its end. -/
theorem trims (raw : Text) : Trims raw := by
  obtain ⟨blanks, hraw, hblanks⟩ := exists_trimEnd raw
  have htext : (Line.ofRaw raw).text = trimStart (trimEnd raw) := trim_eq_trimStart raw
  refine ⟨?_, ?_, ?_, ?_⟩
  · intro ts h
    rw [htext, tokenize_trimStart_ok] at h
    rw [hraw]
    exact tokenize_append_blanks hblanks h
  · intro ts h hno
    rw [htext, tokenize_trimStart_ok]
    rw [hraw] at h
    rcases tokenize_of_append_blanks hblanks h with h | ⟨hne, hescape⟩
    · exact h
    · refine absurd (cutsEscape_iff.2 ⟨fun heq => hne ?_, hescape⟩) hno
      rw [heq] at hraw
      simpa using hraw
  · intro ts _ hcut
    obtain ⟨-, s, q, hs, hm⟩ := cutsEscape_iff.1 hcut
    rw [htext]
    refine tokenize_trimStart_end ?_
    rw [tokenize_of_read hs, Cursor.finish, hm]
    rfl
  · intro ts h
    rw [cutsEscape_iff]
    rw [hraw, tokenize_eq] at h
    obtain ⟨last, hlast, -⟩ := bind_eq_ok.1 h
    rw [Cursor.read_append] at hlast
    obtain ⟨s, hs, -⟩ := bind_eq_ok.1 hlast
    rw [← escape_iff_odd hs]
    constructor
    · rintro ⟨hne, s', q, hs', hm⟩
      rw [hs] at hs'
      cases hs'
      exact ⟨hne, q, hm⟩
    · rintro ⟨hne, q, hm⟩
      exact ⟨hne, s, q, hs, hm⟩

/-- Behind three backslashes a blank is escaped by the third one. -/
theorem trims_three_backslashes :
    tokenize "\tx\\\\\\ " = .ok ["x\\ "] ∧ CutsEscape "\tx\\\\\\ " ∧
      tokenize (Line.ofRaw "\tx\\\\\\ ").text = .error ⟨.incompleteEscape, 4⟩ := by
  have htokens : tokenize "\tx\\\\\\ " = .ok ["x\\ "] := by decide +kernel
  have hcut : CutsEscape "\tx\\\\\\ " := ((trims _).odd _ htokens).2 ⟨by decide, by decide⟩
  exact ⟨htokens, hcut, (trims _).cut _ htokens hcut⟩

end ClusterConsole.Token
