/-
A session shows what the console answers, and nothing else (`session_renders`): for each line the
prompt and all events of its response, up to the first response that ends the session, and no line
after that one is handed on. The service answers each line with one whole response (`Responds`), so
nothing is left over for the line that follows, and the session never waits in vain
(`Session.respond_eq`, one line; `Session.converse_eq`, all of them). The lines of a script are
those of its text, whichever bytes they are made of (`Session.rawLines_encode`).
-/
import ClusterConsole.CommandLine
import ClusterConsole.Proofs.Console.Response
import ClusterConsole.Proofs.Text.Utf8

namespace ClusterConsole

/-! ## Rendering a response -/

namespace Event

theorem next_of_continues {e : Event} (h : e.continues = true) : e.next = .wait := by
  cases e with
  | output o =>
    obtain ⟨hmore, hfinal⟩ : o.hasMore = true ∧ o.terminate = false := by
      simpa [continues] using h
    simp [next, hmore, hfinal]
  | unrecognized l => cases h
  | invalid l message offset => cases h

theorem not_terminates_of_continues {e : Event} (h : e.continues = true) :
    e.terminates = false := by
  cases e with
  | output o => simpa [continues, terminates] using (Bool.and_eq_true_iff.1 h).2
  | unrecognized l => rfl
  | invalid l message offset => rfl

theorem next_of_ends {e : Event} (h : e.ends = true) :
    e.next = if e.terminates then .stop else .read := by
  cases e with
  | output o =>
    have hmore : o.hasMore = false := by simpa [ends] using h
    cases hfinal : o.terminate <;> simp [next, terminates, hmore, hfinal]
  | unrecognized l => rfl
  | invalid l message offset => rfl

end Event

/-- A whole response is rendered whole: nothing of it is left, and nothing is waited for. -/
theorem Responds.render {events : List Event} {final : Bool} (h : Responds events final) :
    renderResponse events =
      (events.flatMap Event.render, if final then .stop else .read, []) := by
  obtain ⟨shown, last, rfl, hshown, hlast, rfl⟩ := h
  induction shown with
  | nil =>
    rw [List.nil_append, renderResponse, Event.next_of_ends hlast]
    cases last.terminates <;> simp
  | cons e shown ih =>
    obtain ⟨he, hrest⟩ := List.forall_mem_cons.1 hshown
    rw [List.cons_append, renderResponse, Event.next_of_continues he, ih hrest]
    rfl

theorem Responds.terminates {events : List Event} {final : Bool} (h : Responds events final) :
    events.any Event.terminates = final := by
  obtain ⟨shown, last, rfl, hshown, -, rfl⟩ := h
  have hnone : shown.any Event.terminates = false := by
    simp only [List.any_eq_false, Bool.not_eq_true]
    exact fun e he => Event.not_terminates_of_continues (hshown e he)
  simp [hnone]

/-! ## Lines -/

namespace Session

/-- The lines of a text: what comes up to each newline, the newline included, and what follows the
last one unless nothing does. -/
def lines : Text → List Text
  | [] => []
  | c :: cs =>
    if c = '\n' then [c] :: lines cs
    else match lines cs with
      | [] => [[c]]
      | l :: ls => (c :: l) :: ls

/-- Bytes without a newline go in front of the first line of those that follow. -/
theorem rawLines_append {b : UInt8} {bs : Bytes} (h : ∀ b' ∈ b :: bs, b' ≠ 0x0A) (rest : Bytes) :
    rawLines (b :: bs ++ rest) = match rawLines rest with
      | [] => [b :: bs]
      | l :: ls => (b :: bs ++ l) :: ls := by
  induction bs generalizing b with
  | nil =>
    rw [List.cons_append, List.nil_append, rawLines, if_neg (h b List.mem_cons_self)]
    rfl
  | cons b' bs ih =>
    obtain ⟨hb, hbs⟩ := List.forall_mem_cons.1 h
    rw [List.cons_append, rawLines, if_neg hb, ih hbs]
    cases rawLines rest <;> rfl

/-- No byte of another character is a newline. -/
theorem ne_newline_of_mem_encodeChar {c : Char} (hc : c ≠ '\n') {b : UInt8}
    (hb : b ∈ String.utf8EncodeChar c) : b ≠ 0x0A := by
  by_cases hascii : c.toNat < 0x80
  · rw [Utf8.encodeChar_ascii hascii, List.mem_singleton] at hb
    rintro rfl
    have hnat : (UInt8.ofNat c.toNat).toNat = 0x0A := by rw [← hb]; rfl
    rw [Utf8.toNat_ofNat_of_lt (by omega)] at hnat
    exact hc (Char.toNat_inj.1 hnat)
  · have hle := Utf8.le_of_mem_encodeChar (Nat.le_of_not_lt hascii) hb
    rintro rfl
    exact absurd hle (by decide)

theorem rawLines_encode (t : Text) : rawLines (Utf8.encode t) = (lines t).map Utf8.encode := by
  induction t with
  | nil => rfl
  | cons c t ih =>
    rw [Utf8.encode_cons, lines]
    split_ifs with hc
    · subst hc
      show rawLines (0x0A :: Utf8.encode t) = _
      rw [rawLines, if_pos rfl, ih]
      rfl
    · obtain ⟨b, bs, hbytes⟩ : ∃ b bs, String.utf8EncodeChar c = b :: bs :=
        List.exists_cons_of_ne_nil fun hnil => by
          have hempty : Utf8.encode [c] = [] := by rw [Utf8.encode_cons, hnil]; rfl
          cases Utf8.encode_eq_nil_iff.1 hempty
      have hnone : ∀ b' ∈ b :: bs, b' ≠ 0x0A := by
        rw [← hbytes]
        exact fun b' => ne_newline_of_mem_encodeChar hc
      rw [hbytes, rawLines_append hnone, ih]
      cases lines t with
      | nil => simp [hbytes]
      | cons l ls => simp [hbytes]

/-! ## What a session is to show -/

/-- The responses up to the first one that ends the session, that one included. -/
def shown : List (List Event) → List (List Event)
  | [] => []
  | r :: rs => if r.any Event.terminates then [r] else r :: shown rs

/-- Whether one of the responses ends the session. -/
def ended (responses : List (List Event)) : Bool := responses.any (·.any Event.terminates)

/-- A transcript of a session whose service answers the given lines with the given responses, one
after another. -/
structure Renders (prompt : Text) (banner : Option Text) (lines : List Line)
    (responses : List (List Event)) (t : Transcript) : Prop where
  /-- The session ends without an error. -/
  error : t.error = none
  /-- The banner if there is one, then the prompt and the events of each response that is shown, and
  one more prompt at the end of the input. -/
  output : t.output = bannerText banner ++
    (shown responses).flatMap (fun r => prompt ++ r.flatMap Event.render) ++
      if ended responses then [] else prompt ++ ['\n']
  /-- Only the lines whose responses are shown are handed on. -/
  handed : t.handed = lines.take (shown responses).length
  taken : t.taken = lines.take (shown responses).length

section Service

variable {σ : Type} {submit : σ → Line → σ × List Event}

/-- The responses of a service to lines that it is given one after another. -/
def responses (submit : σ → Line → σ × List Event) : σ → List Line → List (List Event)
  | _, [] => []
  | s, line :: lines => (submit s line).2 :: responses submit (submit s line).1 lines

/-- While nothing is left over, a line is answered with its own response, and nothing is left over
then. -/
theorem respond_eq {s : σ} {line : Line} {final : Bool} (h : Responds (submit s line).2 final) :
    respond submit ⟨s, [line], []⟩ = ((submit s line).2.flatMap Event.render, [line],
      if final then .inr none else .inl ⟨(submit s line).1, [], []⟩) := by
  have hsubmit : submitAll submit s [line] = submit s line := by
    simp [submitAll]
  simp only [respond, renderResponse, hsubmit, h.render]
  cases final <;> rfl

/-- One line: it is handed on and taken, and its response is shown. -/
theorem step_eq {s : σ} {text : Text} {final : Bool}
    (h : Responds (submit s (Line.ofRaw text)).2 final) :
    step submit { service := s } (Utf8.encode text) =
      ⟨(submit s (Line.ofRaw text)).2.flatMap Event.render, [Line.ofRaw text], [Line.ofRaw text],
        if final then .inr none else .inl { service := (submit s (Line.ofRaw text)).1 }⟩ := by
  simp only [step, Utf8.decode_encode, List.nil_append, respond_eq h]

/-- A session with a service of which each state that it gets into answers any line with one whole
response. -/
theorem converse_eq (prompt : Text) {P : σ → Prop}
    (hkeeps : ∀ s line, P s → P (submit s line).1)
    (hresponds : ∀ s line, P s → ∃ final, Responds (submit s line).2 final) (texts : List Text)
    {s : σ} (hs : P s) :
    Renders prompt none (texts.map Line.ofRaw) (responses submit s (texts.map Line.ofRaw))
      (converse submit prompt { service := s } (texts.map Utf8.encode)) := by
  induction texts generalizing s with
  | nil => exact ⟨rfl, rfl, rfl, rfl⟩
  | cons text texts ih =>
    obtain ⟨final, hfinal⟩ := hresponds s (Line.ofRaw text) hs
    have hends := hfinal.terminates
    rw [List.map_cons, List.map_cons, responses, converse, step_eq hfinal]
    cases final with
    | true =>
      refine ⟨rfl, ?_, ?_, ?_⟩
      · simp [shown, ended, hends, bannerText]
      · simp [shown, hends]
      · simp [shown, hends]
    | false =>
      have hrest := ih (hkeeps s (Line.ofRaw text) hs)
      refine ⟨hrest.error, ?_, ?_, ?_⟩
      · simp [shown, ended, hends, bannerText, hrest.output]
      · simp [shown, hends, hrest.handed]
      · simp [shown, hends, hrest.taken]

end Service

end Session

/-! ## The console -/

namespace Console

/-- A console with handlers that come with it answers each line with one whole response. -/
theorem exists_responds_submit {s : Console} (hserved : s.Served)
    (hs : ∀ h ∈ s.handlers, h.isScripted = false) (line : Line) :
    ∃ final, Responds (s.submit line).2.events final := by
  rw [submit]
  split_ifs
  · obtain ⟨final, h, -⟩ := responds_dispatch hserved hs (Catalog.settles_settle s.catalog line)
    exact ⟨final, h⟩
  · exact ⟨false, responds_single rfl⟩

theorem responses_submit (s : Console) (lines : List Line) :
    Session.responses CommandLine.submit s lines = (s.submitAll lines).2.map Outcome.events := by
  induction lines generalizing s with
  | nil => rfl
  | cons line lines ih =>
    rw [Session.responses, submitAll, List.map_cons]
    exact congrArg (_ :: ·) (ih _)

/-- A session over a script shows what the console answers when the lines of the script are
submitted one after another: the configuration is any that is accepted, with the handlers that come
with the console and any record service, and all handlers have registered. -/
theorem session_renders {c : Config} {service : Option RecordService} {s : Console}
    (hsetup : setup c service [] = .ok s) (script : Text) :
    Session.Renders c.prompt c.banner ((Session.lines script).map Line.ofRaw)
      ((s.submitAll ((Session.lines script).map Line.ofRaw)).2.map Outcome.events)
      (CommandLine.transcript c s (Utf8.encode script)) := by
  have hserved : s.Served := served_of_setup hsetup
  have hscripted : ∀ a ∈ s.handlers, a.isScripted = false := isScripted_of_setup hsetup []
  -- lines leave the console as it was, as far as its answers have to be whole responses
  have hkeeps : ∀ s' line, Agrees s s' → Agrees s (CommandLine.submit s' line).1 :=
    fun s' line h => h.trans (submit_frame s' line)
  have hresponds : ∀ s' line, Agrees s s' →
      ∃ final, Responds (CommandLine.submit s' line).2 final := fun s' line h =>
    exists_responds_submit (hserved.of_agrees h) (isScripted_of_agrees h hscripted) line
  have hrenders :=
    Session.converse_eq c.prompt hkeeps hresponds (Session.lines script) (Agrees.refl s)
  rw [responses_submit, ← Session.rawLines_encode] at hrenders
  refine ⟨hrenders.error, ?_, hrenders.handed, hrenders.taken⟩
  rw [List.append_assoc]
  exact congrArg (Session.bannerText c.banner ++ ·) hrenders.output

/-- With the default configuration, a script whose second line ends the session. -/
theorem session_renders_exit :
    setup {} (some (.memory Store.empty)) [] = .ok standard ∧
      (CommandLine.transcript {} standard (Utf8.encode "# é\n exit\nhelp\n")).output =
        ("KEEL cluster console -- type 'help' for commands\nkeel> keel> Goodbye.\n" : Text) ∧
      (CommandLine.transcript {} standard (Utf8.encode "# é\n exit\nhelp\n")).handed =
        [Line.ofRaw "# é\n", Line.ofRaw " exit\n"] := by
  have hrenders := session_renders setup_standard "# é\n exit\nhelp\n"
  refine ⟨setup_standard, ?_, ?_⟩
  · rw [hrenders.output]
    decide +kernel
  · rw [hrenders.handed]
    decide +kernel

end Console

end ClusterConsole
