/-
What the offset of a lexical error points at (`errors_placed`). A character that makes no escape is
the first one that nothing behind it can repair: the text before it can be completed, and with it no
more. A quote that is missing, or the rest of an escape, is missed at the end of the line.

Only the tokenizer reports an offset to the operator; what handlers say is output. So each offset that
is reported lies within the line that it is reported with.
-/
import ClusterConsole.Proofs.Console.Response

namespace ClusterConsole

namespace Token

open Text

variable {t u : Text} {s : Cursor}

/-! ## Completing a line -/

/-- What completes the escape and the quotes that a cursor is in. -/
def Mode.completion : Mode → Text
  | .run q => q.toList
  | .escape q => '\\' :: q.toList
  | .hex q none => '0' :: '0' :: q.toList
  | .hex q (some _) => '0' :: q.toList

theorem Cursor.read_closing {q : Option Char} {bs : Bytes} {ts : List Text} {n : Nat}
    (hq : ∀ c ∈ q, isQuote c = true) :
    ∃ s', read ⟨.run q, bs, ts⟩ n q.toList = .ok s' ∧ s'.mode = .run none := by
  cases q with
  | none => exact ⟨_, rfl, rfl⟩
  | some c =>
    have hc : c ≠ '\\' := by
      rintro rfl
      exact absurd (hq '\\' rfl) (by decide)
    exact ⟨_, read_cons (step_close hc), rfl⟩

theorem Cursor.read_completion (hs : s.Sound) (n : Nat) :
    ∃ s', s.read n s.mode.completion = .ok s' ∧ s'.mode = .run none := by
  obtain ⟨mode, bs, ts⟩ := s
  have hzero : hexDigit? '0' = some 0 := by decide
  cases mode with
  | run q => exact read_closing hs
  | escape q =>
    show ∃ s', read _ n ('\\' :: q.toList) = .ok s' ∧ _
    rw [read_cons (step_escaped (by decide) (by decide))]
    exact read_closing hs
  | hex q high =>
    cases high with
    | none =>
      show ∃ s', read _ n ('0' :: '0' :: q.toList) = .ok s' ∧ _
      rw [read_cons (step_digit hzero), read_cons (step_byte hzero)]
      exact read_closing hs
    | some d =>
      show ∃ s', read _ n ('0' :: q.toList) = .ok s' ∧ _
      rw [read_cons (step_byte hzero)]
      exact read_closing hs

/-- A text that can be read to its end is the beginning of a line that can be cut into tokens. -/
theorem exists_completion (h : Cursor.start.read 0 t = .ok s) :
    ∃ u ts, tokenize (t ++ u) = .ok ts := by
  obtain ⟨s', hs', hm⟩ := Cursor.read_completion (sound_of_read h) (0 + t.length)
  refine ⟨s.mode.completion, s'.flushed, ?_⟩
  rw [tokenize_eq, Cursor.readAll_append h, Cursor.readAll_of_read hs',
    Cursor.finish_eq_ok.2 ⟨hm, rfl⟩]
  rfl

/-! ## The place of an error -/

/-- What is to be found at the offset of an error in a text. -/
structure Placed (t : Text) (e : LexicalError) : Prop where
  /-- A character that makes no escape. The text before it lacks but the rest of an escape; the text
  up to it fails in the same way whatever follows. -/
  character : ∀ c, e.fault = .illegalEscape c ∨ e.fault = .invalidHexDigit c →
    e.offset < t.length ∧ t[e.offset]? = some c ∧
      tokenize (t.take e.offset) = .error ⟨.incompleteEscape, e.offset⟩ ∧
      ∀ u, tokenize (t.take (e.offset + 1) ++ u) = .error e
  /-- The end of a text that can be completed. -/
  ending : e.fault = .missingQuote ∨ e.fault = .incompleteEscape →
    e.offset = t.length ∧ ∃ u ts, tokenize (t ++ u) = .ok ts

theorem placed_character {c : Char} {e : LexicalError} (hu : Cursor.start.read 0 u = .ok s)
    (hc : s.step c = .error e.fault) (hn : e.offset = u.length) (v : Text) :
    Placed (u ++ c :: v) e := by
  obtain ⟨fault, offset⟩ := e
  subst hn
  have htake : (u ++ c :: v).take (u.length + 1) = u ++ [c] := by
    rw [List.take_append, List.take_of_length_le (by omega), Nat.add_sub_cancel_left]
    rfl
  have hopen : s.finish = .error .incompleteEscape := by
    unfold Cursor.finish
    rcases Cursor.step_eq_error hc with ⟨q, hm, -⟩ | ⟨q, high, hm, -⟩ <;> rw [hm]
  refine ⟨fun d hd => ⟨?_, ?_, ?_, fun w => ?_⟩, fun hend => ?_⟩
  · simp
  · have hdc : d = c := by
      rcases Cursor.step_eq_error hc with ⟨q, -, hf⟩ | ⟨q, high, -, hf⟩ <;> subst hf <;>
        rcases hd with hd | hd <;> cases hd <;> rfl
    rw [hdc, List.getElem?_append_right (Nat.le_refl _), Nat.sub_self]
    rfl
  · rw [List.take_left, tokenize_of_read hu, hopen]
    rfl
  · rw [htake, List.append_assoc]
    exact tokenize_of_step_error hu hc w
  · rcases Cursor.step_eq_error hc with ⟨q, -, hf⟩ | ⟨q, high, -, hf⟩ <;> subst hf <;>
      rcases hend with hend | hend <;> cases hend

theorem placed_ending {e : LexicalError} (ht : Cursor.start.read 0 t = .ok s)
    (hf : s.finish = .error e.fault) (hn : e.offset = t.length) : Placed t e := by
  exact ⟨fun c hc => absurd hc (Cursor.not_character_of_finish hf),
    fun _ => ⟨hn, exists_completion ht⟩⟩

theorem placed_of_tokenize {e : LexicalError} (h : tokenize t = .error e) : Placed t e := by
  rcases tokenize_eq_error h with ⟨u, c, v, s, rfl, hu, hc, hn⟩ | ⟨s, hs, hf, hn⟩
  · exact placed_character hu hc hn v
  · exact placed_ending hs hf hn

theorem offset_le {e : LexicalError} (h : tokenize t = .error e) : e.offset ≤ t.length := by
  rcases tokenize_eq_error h with ⟨u, c, v, s, rfl, -, -, hn⟩ | ⟨s, -, -, hn⟩
  · rw [hn, List.length_append]
    omega
  · rw [hn]

end Token

/-! ## What handlers say -/

/-- The events are pieces of output. -/
def Outputs (events : List Event) : Prop := ∀ e ∈ events, ∃ o, e = .output o

theorem outputs_nil : Outputs [] := by
  rintro e ⟨⟩

theorem outputs_single (o : Output) : Outputs [.output o] := by
  intro e he
  exact ⟨o, List.mem_singleton.1 he⟩

theorem Tells.outputs {events : List Event} (h : Tells events) : Outputs events := by
  obtain ⟨lines, text, rfl⟩ := h
  intro e he
  rcases List.mem_append.1 he with he | he
  · obtain ⟨line, -, rfl⟩ := List.mem_map.1 he
    exact ⟨_, rfl⟩
  · exact outputs_single _ e he

theorem outputs_script {script : Script} {c : Command} {events : List Event}
    (h : script.execute c = .ok events) : Outputs events := by
  have hconduct : ∀ conduct, Script.events c conduct = .ok events → Outputs events := by
    intro conduct h
    cases conduct with
    | fail text => cases h
    | say text =>
      cases h
      exact outputs_single _
    | terminate text =>
      cases h
      exact outputs_single _
    | silent =>
      cases h
      exact outputs_nil
    | done =>
      cases h
      exact outputs_single _
    | echo text =>
      simp only [Script.events] at h
      cases hp : c.parseOptions with
      | error e =>
        rw [hp] at h
        cases h
      | ok p =>
        rw [hp] at h
        cases h
        exact Tells.outputs ⟨_, _, rfl⟩
  simp only [Script.execute] at h
  split at h
  · exact hconduct _ h
  · cases h
    exact outputs_nil

namespace Handler

theorem outputs_hear (h : Handler) (a : Answer) : Outputs (reported (h.hear a).2) := by
  have hnone : Outputs (reported (.ok [])) := outputs_nil
  cases h with
  | help =>
    cases a with
    | registry r => exact (tells_listing _).outputs
    | store e => exact hnone
  | database filter =>
    cases a with
    | registry r => exact hnone
    | store e => exact (tells_hear_store filter e).outputs
  | exit | config _ | cluster _ | scripted _ => exact hnone

theorem outputs_execute {h : Handler} {runs : Bool} {c : Command} {events : List Event}
    (hx : (h.execute runs c).2 = .ok (.emit events)) : Outputs events := by
  cases h with
  | help => cases hx
  | exit =>
    cases hx
    exact outputs_single _
  | config settings =>
    obtain ⟨p, -, hp⟩ := map_eq_ok.1 hx
    cases hp
    exact (tells_config _ _).outputs
  | cluster members =>
    cases hx
    exact (tells_cluster _).outputs
  | database filter =>
    simp only [execute, executeDatabase] at hx
    split at hx
    · cases hx
    · split_ifs at hx
      cases hx
  | scripted script =>
    obtain ⟨said, hsaid, h⟩ := map_eq_ok.1 hx
    cases h
    exact outputs_script hsaid

end Handler

namespace Console

theorem outputs_perform {s : Console} {place : Nat} {h : Handler} {effect : Effect}
    (heffect : ∀ events, effect = .emit events → Outputs events) :
    Outputs (s.perform place h effect).2.events := by
  cases effect with
  | emit events => exact heffect events rfl
  | askRegistry => exact Handler.outputs_hear h _
  | askStore request =>
    cases hc : s.service.call request with
    | mk service reply =>
      cases reply with
      | none =>
        simp only [perform, hc]
        exact outputs_nil
      | some e =>
        rw [perform_askStore hc]
        exact Handler.outputs_hear h _

/-- Whatever handler runs a command, its events are output. -/
theorem outputs_execute (s : Console) (c : Command) : Outputs (s.execute c).2.events := by
  cases hp : s.handlers[c.registration.handler.place]? with
  | none =>
    rw [execute_none hp]
    exact outputs_nil
  | some h =>
    cases hx : h.execute s.service.runs c with
    | mk h' result =>
      cases result with
      | error e =>
        rw [execute_error hp hx]
        exact outputs_single _
      | ok effect =>
        rw [execute_ok hp hx]
        refine outputs_perform fun events heffect => ?_
        have hresult : (h.execute s.service.runs c).2 = .ok (.emit events) := by rw [hx, heffect]
        exact Handler.outputs_execute hresult

end Console

/-! ## Offsets that are reported -/

/-- A report with an offset is that of a line that cannot be cut into tokens. -/
theorem lexical_of_settles {c : Catalog} {line l : Line} {m : Text} {n : Nat}
    (h : Settles c line (.inform (.invalid l m (some n)))) :
    ∃ e, Token.tokenize l.text = .error e ∧ Event.invalid l m (some n) = .lexical l e := by
  generalize hd : Dispatch.inform (.invalid l m (some n)) = d at h
  induction h with
  | @now line d h =>
    have hattempted := Catalog.attempted c line
    rw [h] at hattempted
    cases hattempted with
    | @lexical e he =>
      cases hd
      exact ⟨e, he, rfl⟩
    | noPath | noMatch | options | command => cases hd
  | again _ _ ih => exact ih hd

namespace Console

open Token (LexicalError Placed tokenize)

/-- The offset of a lexical error is the place of the first character that no continuation of the
line repairs, or its end if the line can be completed. The offsets that a console reports, with any
handlers and in any state, are those of such errors, and lie within the lines that they are reported
with. -/
theorem errors_placed :
    (∀ (t : Text) (e : LexicalError), tokenize t = .error e → Placed t e) ∧
      ∀ (s : Console) (line l : Line) (message : Text) (offset : Nat),
        Event.invalid l message (some offset) ∈ (s.submit line).2.events →
          ∃ e, tokenize l.text = .error e ∧ Event.invalid l message (some offset) = .lexical l e ∧
            offset ≤ l.text.length := by
  refine ⟨fun t e h => Token.placed_of_tokenize h, fun s line l message offset hmem => ?_⟩
  unfold submit at hmem
  split_ifs at hmem
  · cases hd : s.catalog.settle line with
    | inform event =>
      rw [hd] at hmem
      obtain rfl := List.mem_singleton.1 hmem
      obtain ⟨e, he, hevent⟩ := lexical_of_settles (Catalog.settles_iff.2 hd)
      refine ⟨e, he, hevent, ?_⟩
      cases hevent
      exact Token.offset_le he
    | execute c =>
      rw [hd] at hmem
      obtain ⟨o, ho⟩ := outputs_execute s c _ hmem
      cases ho
  · cases List.mem_singleton.1 hmem

/-- An escape between quotes that is none, behind a character of two bytes. -/
theorem errors_placed_illegal :
    tokenize "é 'a\\q'" = .error ⟨.illegalEscape 'q', 5⟩ ∧
      (∀ u, tokenize ("é 'a\\q" ++ u) = .error ⟨.illegalEscape 'q', 5⟩) ∧
      Event.invalid (Line.ofRaw "é 'a\\q'") "illegal escape sequence: \\q" (some 5) ∈
        (standard.submit (Line.ofRaw "é 'a\\q'")).2.events ∧
      5 ≤ (Line.ofRaw "é 'a\\q'").text.length := by
  have htokens : tokenize "é 'a\\q'" = .error ⟨.illegalEscape 'q', 5⟩ := by decide +kernel
  have hevent : Event.invalid (Line.ofRaw "é 'a\\q'") "illegal escape sequence: \\q" (some 5) ∈
      (standard.submit (Line.ofRaw "é 'a\\q'")).2.events := by decide +kernel
  obtain ⟨-, -, -, hafter⟩ := (errors_placed.1 _ _ htokens).character 'q' (Or.inl rfl)
  obtain ⟨-, -, -, hle⟩ := errors_placed.2 _ _ _ _ _ hevent
  exact ⟨htokens, hafter, hevent, hle⟩

end Console

end ClusterConsole
