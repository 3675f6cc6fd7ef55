/-
Reading a line one character after another. A cursor stands behind the characters that have been
read so far and holds all that matters of them: whether it is between quotes or inside an escape, the
bytes of the run so far, and the tokens before it. Cutting a line into tokens is reading it with a
cursor to its end (`tokenize_eq`), so a line can be taken apart at any place (`readAll_append`).

The tokens that a cursor holds do not bear on how it goes on (`readAll_after`), nor does the number of
characters before it, but for the offset of an error (`readAll_from`).
-/
import ClusterConsole.Proofs.Token.Scan

namespace ClusterConsole.Token

open Text

/-! ## Cursors -/

/-- Where a cursor stands: between quotes of the kind `q`, or outside quotes. -/
inductive Mode
  | run (q : Option Char)
  /-- Behind a backslash. -/
  | escape (q : Option Char)
  /-- Behind `\x`, and behind one digit if there is a value. -/
  | hex (q : Option Char) (high : Option Nat)
deriving DecidableEq

/-- The quotes that a cursor stands between. -/
def Mode.quote : Mode → Option Char
  | .run q => q
  | .escape q => q
  | .hex q _ => q

/-- What has been read of a line. -/
structure Cursor where
  mode : Mode
  /-- The bytes of the run that the cursor is in. -/
  bytes : Bytes
  /-- The tokens before that run. -/
  tokens : List Text
deriving DecidableEq

/-- The error with `m` more characters before it. -/
def LexicalError.behind (m : Nat) (e : LexicalError) : LexicalError := ⟨e.fault, e.offset + m⟩

/-- The tokens of a scan whose run is of the kind `q`. -/
def Scan.closed (q : Option Char) (r : Scan) : List Text :=
  match q with
  | none => r.bare
  | some _ => r.quoted

namespace Cursor

/-- Nothing has been read yet. -/
def start : Cursor := ⟨.run none, [], []⟩

/-- The tokens when the run ends here, also if it is empty. -/
def emitted (s : Cursor) : List Text := s.tokens ++ [Utf8.decodeLossy s.bytes]

/-- The tokens when the run ends here; an empty one is none. -/
def flushed (s : Cursor) : List Text := if s.bytes = [] then s.tokens else s.emitted

/-- The cursor with more bytes in a run of the kind `q`. -/
def push (s : Cursor) (q : Option Char) (bs : Bytes) : Cursor := ⟨.run q, s.bytes ++ bs, s.tokens⟩

/-- Reads a character. -/
def step (s : Cursor) (c : Char) : Except Fault Cursor :=
  match s.mode with
  | .run none =>
    if c = '\\' then .ok { s with mode := .escape none }
    else if isQuote c then .ok ⟨.run (some c), [], s.flushed⟩
    else if isBlank c then .ok ⟨.run none, [], s.flushed⟩
    else .ok (s.push none (String.utf8EncodeChar c))
  | .run (some q) =>
    if c = '\\' then .ok { s with mode := .escape (some q) }
    else if c = q then .ok ⟨.run none, [], s.emitted⟩
    else .ok (s.push (some q) (String.utf8EncodeChar c))
  | .escape q =>
    if c = 'x' then .ok { s with mode := .hex q none }
    else if isEscapable c then .ok (s.push q (String.utf8EncodeChar c))
    else .error (.illegalEscape c)
  | .hex q high =>
    match hexDigit? c, high with
    | none, _ => .error (.invalidHexDigit c)
    | some d, none => .ok { s with mode := .hex q (some d) }
    | some d, some h => .ok (s.push q [UInt8.ofNat (h * 16 + d)])

/-- The tokens of a line that ends here. -/
def finish (s : Cursor) : Except Fault (List Text) :=
  match s.mode with
  | .run none => .ok s.flushed
  | .run (some _) => .error .missingQuote
  | .escape _ => .error .incompleteEscape
  | .hex _ _ => .error .incompleteEscape

/-- Reads characters, after `n` characters of the line. -/
def read (s : Cursor) (n : Nat) : Text → Except LexicalError Cursor
  | [] => .ok s
  | c :: t =>
    match s.step c with
    | .ok s => s.read (n + 1) t
    | .error f => .error ⟨f, n⟩

/-- Reads the rest of a line, after `n` characters of it. -/
def readAll (s : Cursor) (n : Nat) (t : Text) : Except LexicalError (List Text) := do
  let s ← s.read n t
  s.finish.mapError (⟨·, n + t.length⟩)

variable {s s' : Cursor} {n : Nat} {c : Char} {t u : Text}

/-! ## Taking a line apart -/

theorem read_cons (h : s.step c = .ok s') : s.read n (c :: t) = s'.read (n + 1) t := by
  rw [read, h]

theorem read_append (s : Cursor) (n : Nat) (u t : Text) :
    s.read n (u ++ t) = s.read n u >>= fun s' => s'.read (n + u.length) t := by
  induction u generalizing s n with
  | nil => rfl
  | cons c u ih =>
    rw [List.cons_append, read, read]
    cases s.step c with
    | error f => rfl
    | ok s' =>
      show s'.read (n + 1) (u ++ t) = _
      rw [ih, List.length_cons, Nat.add_right_comm, Nat.add_assoc]

theorem readAll_cons (h : s.step c = .ok s') : s.readAll n (c :: t) = s'.readAll (n + 1) t := by
  unfold readAll
  rw [read_cons h, List.length_cons, Nat.add_right_comm, Nat.add_assoc]

/-- What has been read is left behind. -/
theorem readAll_append (h : s.read n u = .ok s') (t : Text) :
    s.readAll n (u ++ t) = s'.readAll (n + u.length) t := by
  unfold readAll
  rw [read_append, h, List.length_append, Nat.add_assoc]
  rfl

theorem readAll_nil (s : Cursor) (n : Nat) :
    s.readAll n [] = s.finish.mapError (⟨·, n⟩) := rfl

theorem readAll_of_read (h : s.read n t = .ok s') :
    s.readAll n t = s'.finish.mapError (⟨·, n + t.length⟩) := by
  unfold readAll
  rw [h]
  rfl

/-- Behind a character that cannot be read nothing matters. -/
theorem readAll_of_step_error {f : Fault} (hu : s.read n u = .ok s') (hc : s'.step c = .error f)
    (t : Text) : s.readAll n (u ++ c :: t) = .error ⟨f, n + u.length⟩ := by
  rw [readAll_append hu]
  unfold readAll
  rw [read, hc]
  rfl

/-- Reading fails at a character, or everything is read. -/
theorem read_eq_error {e : LexicalError} (h : s.read n t = .error e) :
    ∃ u c v s', t = u ++ c :: v ∧ s.read n u = .ok s' ∧ s'.step c = .error e.fault ∧
      e.offset = n + u.length := by
  induction t generalizing s n with
  | nil => cases h
  | cons c t ih =>
    cases hc : s.step c with
    | error f =>
      rw [read, hc] at h
      cases h
      exact ⟨[], c, t, s, rfl, rfl, hc, rfl⟩
    | ok s' =>
      rw [read_cons hc] at h
      obtain ⟨u, d, v, s'', rfl, hu, hd, hn⟩ := ih h
      refine ⟨c :: u, d, v, s'', rfl, ?_, hd, ?_⟩
      · rw [read_cons hc, hu]
      · rw [hn, List.length_cons]
        omega

/-! ## Steps -/

section Equations

variable {q : Option Char} {bs : Bytes} {ts : List Text} {quote : Char} {d high : Nat}

theorem step_backslash : step ⟨.run q, bs, ts⟩ '\\' = .ok ⟨.escape q, bs, ts⟩ := by
  cases q <;> rfl

theorem step_open (hc : isQuote c = true) :
    step ⟨.run none, bs, ts⟩ c = .ok ⟨.run (some c), [], flushed ⟨.run none, bs, ts⟩⟩ := by
  have hs : c ≠ '\\' := by
    rintro rfl
    exact absurd hc (by decide)
  simp only [step, if_neg hs, if_pos hc]

theorem step_blank (hc : isBlank c = true) :
    step ⟨.run none, bs, ts⟩ c = .ok ⟨.run none, [], flushed ⟨.run none, bs, ts⟩⟩ := by
  have hq : ¬ isQuote c = true := by simp [isQuote_of_isBlank hc]
  simp only [step, if_neg (ne_backslash_of_isBlank hc), if_neg hq, if_pos hc]

theorem step_plain (hs : c ≠ '\\') (hq : ¬ isQuote c = true) (hb : ¬ isBlank c = true) :
    step ⟨.run none, bs, ts⟩ c = .ok ⟨.run none, bs ++ String.utf8EncodeChar c, ts⟩ := by
  simp only [step, if_neg hs, if_neg hq, if_neg hb, push]

theorem step_close (hs : quote ≠ '\\') :
    step ⟨.run (some quote), bs, ts⟩ quote =
      .ok ⟨.run none, [], emitted ⟨.run (some quote), bs, ts⟩⟩ := by
  simp only [step, if_neg hs, if_true]

theorem step_inside (hs : c ≠ '\\') (hc : c ≠ quote) :
    step ⟨.run (some quote), bs, ts⟩ c =
      .ok ⟨.run (some quote), bs ++ String.utf8EncodeChar c, ts⟩ := by
  simp only [step, if_neg hs, if_neg hc, push]

theorem step_escaped (hx : c ≠ 'x') (hc : isEscapable c = true) :
    step ⟨.escape q, bs, ts⟩ c = .ok ⟨.run q, bs ++ String.utf8EncodeChar c, ts⟩ := by
  simp only [step, if_neg hx, if_pos hc, push]

theorem step_illegal (hx : c ≠ 'x') (hc : ¬ isEscapable c = true) :
    step ⟨.escape q, bs, ts⟩ c = .error (.illegalEscape c) := by
  simp only [step, if_neg hx, if_neg hc]

theorem step_x : step ⟨.escape q, bs, ts⟩ 'x' = .ok ⟨.hex q none, bs, ts⟩ := rfl

theorem step_digit (hd : hexDigit? c = some d) :
    step ⟨.hex q none, bs, ts⟩ c = .ok ⟨.hex q (some d), bs, ts⟩ := by
  simp only [step, hd]

theorem step_byte (hd : hexDigit? c = some d) :
    step ⟨.hex q (some high), bs, ts⟩ c =
      .ok ⟨.run q, bs ++ [UInt8.ofNat (high * 16 + d)], ts⟩ := by
  simp only [step, hd, push]

theorem step_no_digit {high : Option Nat} (hd : hexDigit? c = none) :
    step ⟨.hex q high, bs, ts⟩ c = .error (.invalidHexDigit c) := by
  simp only [step, hd]

end Equations

/-- All that a step can do to where a cursor stands, and when. -/
inductive Moves : Mode → Char → Except Fault Mode → Prop
  | backslash {q : Option Char} : Moves (.run q) '\\' (.ok (.escape q))
  | opens {c : Char} (hc : isQuote c = true) : Moves (.run none) c (.ok (.run (some c)))
  | closes {c : Char} (hs : c ≠ '\\') : Moves (.run (some c)) c (.ok (.run none))
  | stays {q : Option Char} {c : Char} (hs : c ≠ '\\') : Moves (.run q) c (.ok (.run q))
  | x {q : Option Char} : Moves (.escape q) 'x' (.ok (.hex q none))
  | escaped {q : Option Char} {c : Char} (hc : isEscapable c = true) :
      Moves (.escape q) c (.ok (.run q))
  | illegal {q : Option Char} {c : Char} : Moves (.escape q) c (.error (.illegalEscape c))
  | digit {q : Option Char} {c : Char} {d : Nat} (hd : hexDigit? c = some d) :
      Moves (.hex q none) c (.ok (.hex q (some d)))
  | byte {q : Option Char} {c : Char} {high d : Nat} (hd : hexDigit? c = some d) :
      Moves (.hex q (some high)) c (.ok (.run q))
  | noDigit {q : Option Char} {c : Char} {high : Option Nat} (hd : hexDigit? c = none) :
      Moves (.hex q high) c (.error (.invalidHexDigit c))

theorem moves (s : Cursor) (c : Char) : Moves s.mode c ((s.step c).map mode) := by
  obtain ⟨mode, bs, ts⟩ := s
  cases mode with
  | run q =>
    by_cases hs : c = '\\'
    · subst hs
      rw [step_backslash]
      exact .backslash
    · cases q with
      | none =>
        by_cases hq : isQuote c = true
        · rw [step_open hq]
          exact .opens hq
        · by_cases hb : isBlank c = true
          · rw [step_blank hb]
            exact .stays hs
          · rw [step_plain hs hq hb]
            exact .stays hs
      | some quote =>
        by_cases hc : c = quote
        · subst hc
          rw [step_close hs]
          exact .closes hs
        · rw [step_inside hs hc]
          exact .stays hs
  | escape q =>
    by_cases hx : c = 'x'
    · subst hx
      exact .x
    · by_cases hc : isEscapable c = true
      · rw [step_escaped hx hc]
        exact .escaped hc
      · rw [step_illegal hx hc]
        exact .illegal
  | hex q high =>
    cases hd : hexDigit? c with
    | none =>
      rw [step_no_digit hd]
      exact .noDigit hd
    | some d =>
      cases high with
      | none =>
        rw [step_digit hd]
        exact .digit hd
      | some high =>
        rw [step_byte hd]
        exact .byte hd

/-- Only an escape can be wrong: its character, or one of its digits. -/
theorem step_eq_error {f : Fault} (h : s.step c = .error f) :
    (∃ q, s.mode = .escape q ∧ f = .illegalEscape c) ∨
      ∃ q high, s.mode = .hex q high ∧ f = .invalidHexDigit c := by
  have hmoves := moves s c
  rw [h] at hmoves
  generalize s.mode = m at hmoves
  cases hmoves with
  | illegal => exact Or.inl ⟨_, rfl, rfl⟩
  | noDigit hd => exact Or.inr ⟨_, _, rfl, rfl⟩

/-- A cursor gets behind a backslash from a run only. -/
theorem step_eq_escape {q : Option Char} (h : s.step c = .ok s') (hm : s'.mode = .escape q) :
    c = '\\' ∧ s.mode = .run q := by
  have hmoves := moves s c
  rw [h] at hmoves
  simp only [Except.map, hm] at hmoves
  generalize s.mode = m at hmoves
  cases hmoves
  exact ⟨rfl, rfl⟩

/-- What a cursor stands between, if anything, are quotes. -/
def Sound (s : Cursor) : Prop := ∀ q ∈ s.mode.quote, isQuote q = true

theorem step_sound (hs : s.Sound) (h : s.step c = .ok s') : s'.Sound := by
  have hmoves := moves s c
  rw [h] at hmoves
  unfold Sound at hs ⊢
  simp only [Except.map] at hmoves
  generalize s.mode = m at hmoves hs
  generalize s'.mode = m' at hmoves ⊢
  cases hmoves with
  | opens hc =>
    rintro q ⟨⟩
    exact hc
  | closes => rintro q ⟨⟩
  | backslash | stays | x | escaped | digit | byte => exact hs

theorem read_sound (hs : s.Sound) (h : s.read n t = .ok s') : s'.Sound := by
  induction t generalizing s n with
  | nil =>
    cases h
    exact hs
  | cons c t ih =>
    cases hc : s.step c with
    | error f =>
      rw [read, hc] at h
      cases h
    | ok s'' =>
      rw [read_cons hc] at h
      exact ih (step_sound hs hc) h

/-! ## Ends -/

theorem finish_eq_ok {ts : List Text} : s.finish = .ok ts ↔ s.mode = .run none ∧ s.flushed = ts := by
  obtain ⟨mode, bs, tokens⟩ := s
  cases mode with
  | run q => cases q <;> simp [finish]
  | escape q => simp [finish]
  | hex q high => simp [finish]

/-- A line cannot end between quotes, nor inside an escape. -/
theorem finish_eq_error {f : Fault} (h : s.finish = .error f) :
    (∃ q, s.mode = .run (some q) ∧ f = .missingQuote) ∨
      ((∃ q, s.mode = .escape q) ∨ ∃ q high, s.mode = .hex q high) ∧ f = .incompleteEscape := by
  obtain ⟨mode, bs, ts⟩ := s
  cases mode with
  | run q =>
    cases q with
    | none => cases h
    | some q =>
      cases h
      exact Or.inl ⟨q, rfl, rfl⟩
  | escape q =>
    cases h
    exact Or.inr ⟨Or.inl ⟨q, rfl⟩, rfl⟩
  | hex q high =>
    cases h
    exact Or.inr ⟨Or.inr ⟨q, high, rfl⟩, rfl⟩

theorem not_character_of_finish {f : Fault} (h : s.finish = .error f) :
    ¬ (f = .illegalEscape c ∨ f = .invalidHexDigit c) := by
  rintro (rfl | rfl) <;> rcases finish_eq_error h with ⟨q, -, hf⟩ | ⟨-, hf⟩ <;> cases hf

/-! ## The tokens before a cursor -/

/-- The cursor with more tokens before it. -/
def after (ts : List Text) (s : Cursor) : Cursor := { s with tokens := ts ++ s.tokens }

theorem flushed_after (ts : List Text) (s : Cursor) : (s.after ts).flushed = ts ++ s.flushed := by
  unfold flushed
  split_ifs with h h' h'
  · rfl
  · exact absurd h h'
  · exact absurd h' h
  · exact List.append_assoc ts s.tokens _

theorem step_after (ts : List Text) (s : Cursor) (c : Char) :
    (s.after ts).step c = (s.step c).map (after ts) := by
  have hflushed := flushed_after ts s
  obtain ⟨mode, bs, tokens⟩ := s
  cases mode with
  | run q =>
    cases q with
    | none =>
      simp only [step, after] at hflushed ⊢
      split_ifs <;> simp [Except.map, after, push, hflushed]
    | some q =>
      simp only [step, after]
      split_ifs <;> simp [Except.map, after, push, emitted]
  | escape q =>
    simp only [step, after]
    split_ifs <;> rfl
  | hex q high =>
    simp only [step, after]
    cases hexDigit? c with
    | none => rfl
    | some d => cases high <;> rfl

theorem read_after (ts : List Text) (s : Cursor) (n : Nat) (t : Text) :
    (s.after ts).read n t = (s.read n t).map (after ts) := by
  induction t generalizing s n with
  | nil => rfl
  | cons c t ih =>
    rw [read, read, step_after]
    cases s.step c with
    | error f => rfl
    | ok s' => exact ih s' (n + 1)

theorem finish_after (ts : List Text) (s : Cursor) :
    (s.after ts).finish = s.finish.map (ts ++ ·) := by
  have hflushed := flushed_after ts s
  obtain ⟨mode, bs, tokens⟩ := s
  cases mode with
  | run q =>
    cases q with
    | none => exact congrArg Except.ok hflushed
    | some q => rfl
  | escape q => rfl
  | hex q high => rfl

/-- Tokens before a cursor stay before those that are read. -/
theorem readAll_after (ts : List Text) (s : Cursor) (n : Nat) (t : Text) :
    (s.after ts).readAll n t = (s.readAll n t).map (ts ++ ·) := by
  unfold readAll
  rw [read_after]
  cases s.read n t with
  | error e => rfl
  | ok s' =>
    show (s'.after ts).finish.mapError _ = (s'.finish.mapError _).map _
    rw [finish_after]
    cases s'.finish <;> rfl

/-! ## The characters before a cursor -/

theorem read_from (s : Cursor) (n m : Nat) (t : Text) :
    s.read (n + m) t = (s.read n t).mapError (LexicalError.behind m) := by
  induction t generalizing s n with
  | nil => rfl
  | cons c t ih =>
    rw [read, read]
    cases s.step c with
    | error f => rfl
    | ok s' =>
      show s'.read (n + m + 1) t = (s'.read (n + 1) t).mapError _
      rw [Nat.add_right_comm, ih]

/-- What is read does not depend on the number of characters before it; the offset of an error counts
them. -/
theorem readAll_from (s : Cursor) (n m : Nat) (t : Text) :
    s.readAll (n + m) t = (s.readAll n t).mapError (LexicalError.behind m) := by
  unfold readAll
  rw [read_from]
  cases s.read n t with
  | error e => rfl
  | ok s' =>
    show s'.finish.mapError _ = (s'.finish.mapError _).mapError _
    cases s'.finish with
    | error f =>
      show Except.error _ = Except.error _
      rw [LexicalError.behind, Nat.add_right_comm]
    | ok ts => rfl

/-! ## Reading is scanning -/

theorem flushed_eq (bs : Bytes) (ts later : List Text) (m : Mode) :
    (⟨m, bs, ts⟩ : Cursor).flushed ++ later = ts ++ Scan.bare (bs, later) := by
  unfold flushed Scan.bare
  split_ifs <;> simp [emitted, Scan.quoted]

section Run

variable (x : Except LexicalError Scan) (bs bs' : Bytes) (ts : List Text) (q : Option Char)

theorem map_push :
    (x.map (Scan.push bs')).map (fun r => ts ++ (Scan.push bs r).closed q) =
      x.map fun r => ts ++ (Scan.push (bs ++ bs') r).closed q := by
  cases x <;> simp [Except.map, Scan.push]

theorem map_flushed (later : Scan → List Text) :
    (x.map fun r => ([], later r)).map (fun r => ts ++ (Scan.push bs r).closed none) =
      x.map fun r => (⟨.run none, bs, ts⟩ : Cursor).flushed ++ later r := by
  cases x with
  | error e => rfl
  | ok r => simp [Except.map, Scan.push, Scan.closed, flushed_eq]

end Run

/-- Inside a run, the cursor adds to what it holds what the scan reads from there on. -/
theorem readAll_run (q : Option Char) (n : Nat) (t : Text) (bs : Bytes) (ts : List Text) :
    readAll ⟨.run q, bs, ts⟩ n t =
      (scan q n t).map fun r => ts ++ (Scan.push bs r).closed q := by
  -- along the scan, which takes an escape at once where the cursor takes its characters one by one
  fun_induction scan q n t generalizing bs ts with
  | case1 n =>
    have h := flushed_eq bs ts [] (.run none)
    rw [List.append_nil] at h
    simp [readAll_nil, finish, Except.map, Except.mapError, Scan.push, Scan.closed, h]
  | case2 => rfl
  | case3 => rw [readAll_cons step_backslash]; rfl
  | case4 => rw [readAll_cons step_backslash, readAll_cons step_x]; rfl
  | case5 q n h digits hh =>
    exact readAll_of_step_error (u := ['\\', 'x'])
      (by rw [read_cons step_backslash, read_cons step_x]; rfl) (step_no_digit hh) digits
  | case6 q n h high hh =>
    rw [readAll_cons step_backslash, readAll_cons step_x, readAll_cons (step_digit hh)]
    rfl
  | case7 q n h high l rest hh hl =>
    exact readAll_of_step_error (u := ['\\', 'x', h])
      (by rw [read_cons step_backslash, read_cons step_x, read_cons (step_digit hh)]; rfl)
      (step_no_digit hl) rest
  | case8 q n c high d rest hc low hd ih =>
    rw [readAll_cons step_backslash, readAll_cons step_x, readAll_cons (step_digit hc),
      readAll_cons (step_byte hd), ih, map_push]
  | case9 q n c rest hx hc ih =>
    rw [readAll_cons step_backslash, readAll_cons (step_escaped hx hc), ih, map_push]
  | case10 q n c rest hx hc =>
    exact readAll_of_step_error (u := ['\\']) (by rw [read_cons step_backslash]; rfl)
      (step_illegal hx hc) rest
  | case11 n c rest hs hc ih =>
    rw [readAll_cons (step_open hc), ih, map_flushed]
    rfl
  | case12 n c rest hs hq hc ih =>
    rw [readAll_cons (step_blank hc), ih, map_flushed]
    rfl
  | case13 n c rest hc hq hb ih =>
    rw [readAll_cons (step_plain hc hq hb), ih, map_push]
  | case14 n c rest hc ih =>
    rw [readAll_cons (step_close hc), ih]
    cases scan none (n + 1) rest with
    | error e => rfl
    | ok r => simp [Except.map, Scan.push, Scan.closed, Scan.quoted, emitted]
  | case15 q n c rest hc hq ih =>
    rw [readAll_cons (step_inside hc hq), ih, map_push]

end Cursor

/-! ## Cutting into tokens -/

variable {t u v : Text} {s : Cursor}

/-- Cutting a line into tokens is reading it to its end. -/
theorem tokenize_eq (t : Text) : tokenize t = Cursor.start.readAll 0 t := by
  rw [tokenize, Cursor.start, Cursor.readAll_run]
  rfl

theorem sound_of_read (h : Cursor.start.read 0 t = .ok s) : s.Sound :=
  Cursor.read_sound (by rintro q ⟨⟩) h

theorem tokenize_of_read (h : Cursor.start.read 0 t = .ok s) :
    tokenize t = s.finish.mapError (⟨·, t.length⟩) := by
  rw [tokenize_eq, Cursor.readAll_of_read h, Nat.zero_add]

theorem tokenize_of_step_error {c : Char} {f : Fault} (hu : Cursor.start.read 0 u = .ok s)
    (hc : s.step c = .error f) (v : Text) : tokenize (u ++ c :: v) = .error ⟨f, u.length⟩ := by
  rw [tokenize_eq, Cursor.readAll_of_step_error hu hc, Nat.zero_add]

theorem exists_read_of_tokenize {ts : List Text} (h : tokenize t = .ok ts) :
    ∃ s, Cursor.start.read 0 t = .ok s ∧ s.finish = .ok ts := by
  rw [tokenize_eq] at h
  obtain ⟨s, hs, h⟩ := bind_eq_ok.1 h
  exact ⟨s, hs, mapError_eq_ok.1 h⟩

/-- A line fails at a character that cannot be read, or at its end. -/
theorem tokenize_eq_error {e : LexicalError} (h : tokenize t = .error e) :
    (∃ u c v s, t = u ++ c :: v ∧ Cursor.start.read 0 u = .ok s ∧ s.step c = .error e.fault ∧
        e.offset = u.length) ∨
      ∃ s, Cursor.start.read 0 t = .ok s ∧ s.finish = .error e.fault ∧ e.offset = t.length := by
  cases hs : Cursor.start.read 0 t with
  | error e' =>
    rw [tokenize_eq, Cursor.readAll, hs] at h
    cases h
    obtain ⟨u, c, v, s, rfl, hu, hc, hn⟩ := Cursor.read_eq_error hs
    exact Or.inl ⟨u, c, v, s, rfl, hu, hc, by rw [hn, Nat.zero_add]⟩
  | ok s =>
    rw [tokenize_of_read hs] at h
    cases hf : s.finish with
    | ok ts =>
      rw [hf] at h
      cases h
    | error f =>
      rw [hf] at h
      cases h
      exact Or.inr ⟨s, rfl, hf, rfl⟩

end ClusterConsole.Token
