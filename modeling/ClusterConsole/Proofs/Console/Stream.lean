/-
A session follows its event stream exactly (`run_follows`): whichever lists of events the lines are
answered with, however they are split over the lines, each round renders the shortest piece of what
has been sent and not yet rendered that ends in an event after which nothing is waited for, and what
is left over waits for the lines that follow. The service of a session takes lines late, when the
session has nothing left to render; the proof sees it as one that takes every line at once
(`State.eager`), which cannot be told apart from it (`respond_eager`).
-/
import ClusterConsole.Proofs.Console.Session

namespace ClusterConsole

/-! ## Rounds -/

namespace Event

/-- What follows an event, in terms of what the event says of its response. -/
theorem next_eq (e : Event) :
    e.next = if e.continues then .wait else if e.terminates then .stop else .read := by
  cases e with
  | output o => cases hmore : o.hasMore <;> cases hfinal : o.terminate <;>
      simp [next, continues, terminates, hmore, hfinal]
  | unrecognized l => rfl
  | invalid l message offset => rfl

end Event

namespace Session

/-- Events that are rendered one after another until `next` follows: only the last one can end the
round, and if more is waited for, none does. -/
def Closes (round : List Event) : Next → Prop
  | .wait => ∀ e ∈ round, e.continues = true
  | .read => ∃ shown last, round = shown ++ [last] ∧ (∀ e ∈ shown, e.continues = true) ∧
      last.continues = false ∧ last.terminates = false
  | .stop => ∃ shown last, round = shown ++ [last] ∧ (∀ e ∈ shown, e.continues = true) ∧
      last.terminates = true

theorem Closes.cons {e : Event} {round : List Event} {next : Next} (he : e.continues = true)
    (h : Closes round next) : Closes (e :: round) next := by
  cases next with
  | wait => exact List.forall_mem_cons.2 ⟨he, h⟩
  | read =>
    obtain ⟨shown, last, rfl, hshown, hlast⟩ := h
    exact ⟨e :: shown, last, rfl, List.forall_mem_cons.2 ⟨he, hshown⟩, hlast⟩
  | stop =>
    obtain ⟨shown, last, rfl, hshown, hlast⟩ := h
    exact ⟨e :: shown, last, rfl, List.forall_mem_cons.2 ⟨he, hshown⟩, hlast⟩

/-- An event that does not go on closes a round of its own. -/
theorem closes_singleton {e : Event} (he : e.continues = false) : Closes [e] e.next := by
  rw [Event.next_eq, he]
  cases hfinal : e.terminates with
  | true => exact ⟨[], e, rfl, List.forall_mem_nil _, hfinal⟩
  | false => exact ⟨[], e, rfl, List.forall_mem_nil _, he, hfinal⟩

/-- What is rendered of a queue is a round at its front. Only a round that is waited on takes the
whole queue. -/
theorem renderResponse_eq (queue : List Event) : ∃ round next left, queue = round ++ left ∧
    renderResponse queue = (round.flatMap Event.render, next, left) ∧ Closes round next ∧
    (next = .wait → left = []) := by
  induction queue with
  | nil => exact ⟨[], .wait, [], rfl, rfl, List.forall_mem_nil _, fun _ => rfl⟩
  | cons e queue ih =>
    cases he : e.continues with
    | true =>
      obtain ⟨round, next, left, rfl, hrender, hcloses, hleft⟩ := ih
      refine ⟨e :: round, next, left, rfl, ?_, hcloses.cons he, hleft⟩
      rw [renderResponse, Event.next_of_continues he, hrender]
      rfl
    | false =>
      have hnext : e.next ≠ .wait := by
        rw [Event.next_eq, he]
        cases e.terminates <;> simp
      refine ⟨[e], e.next, queue, rfl, ?_, closes_singleton he, fun h => absurd h hnext⟩
      rw [renderResponse]
      cases h : e.next with
      | wait => exact absurd h hnext
      | read => simp
      | stop => simp

/-- Rendering goes on with what comes later only if all that is there is waited on. -/
theorem renderResponse_append (early late : List Event) :
    renderResponse (early ++ late) = match renderResponse early with
      | (text, .wait, _) =>
        ((text ++ (renderResponse late).1), (renderResponse late).2.1, (renderResponse late).2.2)
      | (text, next, left) => (text, next, left ++ late) := by
  induction early with
  | nil => rfl
  | cons e early ih =>
    rw [List.cons_append, renderResponse, renderResponse]
    cases he : e.next with
    | wait =>
      simp only [ih]
      rcases renderResponse early with ⟨text, next, left⟩
      cases next <;> simp
    | read => rfl
    | stop => rfl

/-! ## A service that takes lines at once -/

section Service

variable {σ : Type} (submit : σ → Line → σ × List Event)

theorem submitAll_concat (s : σ) (lines : List Line) (line : Line) :
    submitAll submit s (lines ++ [line]) =
      ((submit (submitAll submit s lines).1 line).1,
        (submitAll submit s lines).2 ++ (submit (submitAll submit s lines).1 line).2) := by
  induction lines generalizing s with
  | nil => simp [submitAll]
  | cons first lines ih => simp [submitAll, ih]

/-- The service once it has taken the lines that wait for it, and the events that are sent and not
yet rendered then. -/
def State.eager (s : State σ) : σ × List Event :=
  ((submitAll submit s.service s.inbox).1, s.events ++ (submitAll submit s.service s.inbox).2)

/-- A line that is handed on is answered at once. -/
theorem State.eager_hand (s : State σ) (line : Line) :
    { s with inbox := s.inbox ++ [line] : State σ }.eager submit =
      ((submit (s.eager submit).1 line).1,
        (s.eager submit).2 ++ (submit (s.eager submit).1 line).2) := by
  simp only [eager, submitAll_concat, List.append_assoc]

/-- A response is rendered from all events that are sent and not yet rendered, although the service
may not have taken the lines they answer. -/
theorem respond_eager (s : State σ) : ∃ round next left,
    (s.eager submit).2 = round ++ left ∧ Closes round next ∧ (next = .wait → left = []) ∧
    (respond submit s).1 = round.flatMap Event.render ∧
    match next with
      | .read => ∃ s' : State σ, (respond submit s).2.2 = .inl s' ∧
          s'.eager submit = ((s.eager submit).1, left)
      | .stop => (respond submit s).2.2 = .inr none
      | .wait => (respond submit s).2.2 = .inr (some (.mailboxClosed "console")) := by
  obtain ⟨round, next, left, hqueue, hrender, hcloses, hleft⟩ :=
    renderResponse_eq (s.eager submit).2
  refine ⟨round, next, left, hqueue, hcloses, hleft, ?_⟩
  simp only [State.eager, renderResponse_append] at hrender
  rw [respond]
  rcases hearly : renderResponse s.events with ⟨text, next', left'⟩
  rw [hearly] at hrender
  cases next' with
  | read =>
    obtain ⟨rfl, rfl, rfl⟩ : text = _ ∧ Next.read = next ∧ _ = left := by simpa using hrender
    exact ⟨rfl, _, rfl, rfl⟩
  | stop =>
    obtain ⟨rfl, rfl, rfl⟩ : text = _ ∧ Next.stop = next ∧ _ = left := by simpa using hrender
    exact ⟨rfl, rfl⟩
  | wait =>
    rcases hlate : renderResponse (submitAll submit s.service s.inbox).2 with ⟨text', next', left'⟩
    obtain ⟨htext, rfl, rfl⟩ : text ++ text' = _ ∧ next' = next ∧ left' = left := by
      simpa [hlate] using hrender
    simp only [hlate]
    cases next' with
    | read => exact ⟨htext, _, rfl, by simp [State.eager, submitAll]⟩
    | stop => exact ⟨htext, rfl⟩
    | wait => exact ⟨htext, rfl⟩

end Service

theorem answering_eq (lists : List (List Event)) (line : Line) :
    answering lists line = (lists.tail, lists.headD []) := by
  cases lists <;> rfl

/-! ## What a session does with its events -/

/-- How a session ends. -/
inductive Ending
  /-- An event stops it. -/
  | stopped
  /-- There is no further line. -/
  | inputOver
  /-- It waits for an event, and none can come any more. -/
  | closed
deriving DecidableEq

/-- What follows the last round of a session. -/
def Ending.next : Ending → Next
  | .stopped => .stop
  | .inputOver => .read
  | .closed => .wait

/-- Whether the session never waits for an event that may still come. `count` is the number of
lines, `queue` what is sent before the first of them, and the lists answer the first lines. By the
time a line is answered there is then an event for it: one that ends its response, after those that
end the responses before it, or one that stops the session. -/
def Supplied (count : Nat) (queue : List Event) (lists : List (List Event)) : Prop :=
  ∀ n, n < count → n < lists.length →
    (∃ e ∈ queue ++ (lists.take (n + 1)).flatten, e.terminates = true) ∨
      n < (queue ++ (lists.take (n + 1)).flatten).countP fun e => !e.continues

/-- A transcript of a session that renders one round of events for each line that it hands on. The
events of `queue` are sent before the first line, and the n-th list with the n-th line. -/
structure Follows (prompt : Text) (banner : Option Text) (lines : List Line) (queue : List Event)
    (lists rounds : List (List Event)) (ending : Ending) (t : Transcript) : Prop where
  /-- The first lines are handed on, each once and in order. -/
  handed : t.handed = lines.take rounds.length
  count : rounds.length ≤ lines.length
  /-- Up to the end of each round the events are rendered in the order they were sent in, and none
  before its line. -/
  sent : ∀ n < rounds.length,
    (rounds.take (n + 1)).flatten <+: queue ++ (lists.take (n + 1)).flatten
  /-- A round ends with the first event that is not waited on, and lines are read until then. -/
  earlier : ∀ round ∈ rounds.dropLast, Closes round .read
  last : ∀ round ∈ rounds.getLast?, Closes round ending.next
  stopped : ending = .stopped → rounds ≠ []
  inputOver : ending = .inputOver → rounds.length = lines.length
  /-- The last line finds no list, and every event that was sent is rendered. -/
  closed : ending = .closed →
    lists.length < rounds.length ∧ rounds.flatten = queue ++ lists.flatten
  /-- The banner if there is one, then the prompt and the events of each round, and one more prompt
  at the end of the input. -/
  output : t.output = bannerText banner ++
    rounds.flatMap (fun round => prompt ++ round.flatMap Event.render) ++
      if ending = .inputOver then prompt ++ ['\n'] else []
  error : t.error = if ending = .closed then some (.mailboxClosed "console") else none

/-! ## One line -/

theorem flatten_take_succ (lists : List (List Event)) (n : Nat) :
    (lists.take (n + 1)).flatten = lists.headD [] ++ (lists.tail.take n).flatten := by
  cases lists <;> simp

theorem flatten_eq_headD_append (lists : List (List Event)) :
    lists.flatten = lists.headD [] ++ lists.tail.flatten := by
  cases lists <;> simp

/-- A round that has ended leaves a session that goes on supplied. -/
theorem Supplied.tail {count : Nat} {queue round left : List Event} {lists : List (List Event)}
    (h : Supplied (count + 1) queue lists) (hqueue : queue ++ lists.headD [] = round ++ left)
    (hcloses : Closes round .read) : Supplied count left lists.tail := by
  obtain ⟨shown, last, rfl, hshown, hlast, hfinal⟩ := hcloses
  have hstop : ∀ e ∈ shown ++ [last], e.terminates = false := by
    simp only [List.forall_mem_append, List.forall_mem_singleton]
    exact ⟨fun e he => Event.not_terminates_of_continues (hshown e he), hfinal⟩
  have hone : (shown ++ [last]).countP (fun e => !e.continues) = 1 := by
    have hnone : shown.countP (fun e => !e.continues) = 0 := by
      simpa [List.countP_eq_zero] using hshown
    simp [List.countP_append, hnone, hlast]
  intro n hn hlength
  have hsent := h (n + 1) (by omega) (by rw [List.length_tail] at hlength; omega)
  rw [flatten_take_succ, ← List.append_assoc, hqueue, List.append_assoc] at hsent
  refine hsent.imp ?_ ?_
  · rintro ⟨e, he, hterminates⟩
    rcases List.mem_append.1 he with hround | hlater
    · rw [hstop e hround] at hterminates
      cases hterminates
    · exact ⟨e, hlater, hterminates⟩
  · intro hcount
    rw [List.countP_append, hone] at hcount
    omega

/-- While lists are left, a session that is supplied does not wait in vain. -/
theorem Supplied.eq_nil {count : Nat} {queue : List Event} {lists : List (List Event)}
    (h : Supplied (count + 1) queue lists)
    (hwait : ∀ e ∈ queue ++ lists.headD [], e.continues = true) : lists = [] := by
  cases lists with
  | nil => rfl
  | cons list lists =>
    exfalso
    have hsent := h 0 (by omega) (by simp)
    rw [flatten_take_succ, List.take_zero, List.flatten_nil, List.append_nil] at hsent
    rcases hsent with ⟨e, he, hterminates⟩ | hcount
    · rw [Event.not_terminates_of_continues (hwait e he)] at hterminates
      cases hterminates
    · obtain ⟨e, he, hends⟩ := List.countP_pos_iff.1 hcount
      simp [hwait e he] at hends

section Follows

variable {prompt : Text} {line : Line} {lines taken : List Line} {queue round left : List Event}
  {lists rounds : List (List Event)} {ending : Ending} {t : Transcript}

/-- A line with a round after which the next line is read, in front of a session that starts with
what that round leaves. -/
theorem Follows.cons (hqueue : queue ++ lists.headD [] = round ++ left)
    (hcloses : Closes round .read)
    (h : Follows prompt none lines left lists.tail rounds ending t) :
    Follows prompt none (line :: lines) queue lists (round :: rounds) ending
      ⟨prompt ++ round.flatMap Event.render ++ t.output, line :: t.handed, taken, t.error⟩ where
  handed := by simp [h.handed]
  count := by simpa using h.count
  sent := by
    intro n hn
    rw [flatten_take_succ lists, ← List.append_assoc, hqueue, List.append_assoc,
      List.take_succ_cons, List.flatten_cons, List.prefix_append_right_inj]
    cases n with
    | zero => simp
    | succ n => exact h.sent n (by simpa using hn)
  earlier := by
    cases rounds with
    | nil => simp
    | cons next rounds => simpa using ⟨hcloses, h.earlier⟩
  last := by
    cases rounds with
    | nil =>
      -- without a further round the input is over
      have hending : ending = .inputOver := by
        cases ending with
        | stopped => exact absurd rfl (h.stopped rfl)
        | inputOver => rfl
        | closed => exact absurd (h.closed rfl).1 (by simp)
      simpa [hending, Ending.next] using hcloses
    | cons next rounds => simpa using h.last
  stopped := by simp
  inputOver := by
    intro hending
    simp [h.inputOver hending]
  closed := by
    intro hending
    obtain ⟨hlength, hall⟩ := h.closed hending
    refine ⟨?_, ?_⟩
    · rw [List.length_tail] at hlength
      simp only [List.length_cons]
      omega
    · rw [List.flatten_cons, hall, flatten_eq_headD_append lists, ← List.append_assoc, ← hqueue,
        List.append_assoc]
  output := by simp [h.output, bannerText]
  error := h.error

/-- A line with a round that stops the session. -/
theorem follows_stop (hqueue : queue ++ lists.headD [] = round ++ left)
    (hcloses : Closes round .stop) :
    Follows prompt none (line :: lines) queue lists [round] .stopped
      ⟨prompt ++ round.flatMap Event.render, [line], taken, none⟩ where
  handed := rfl
  count := by simp
  sent := by
    intro n hn
    obtain rfl : n = 0 := by simpa using hn
    rw [flatten_take_succ lists, ← List.append_assoc, hqueue]
    simp
  earlier := by simp
  last := by simpa [Ending.next] using hcloses
  stopped := by simp
  inputOver := nofun
  closed := nofun
  output := by simp [bannerText]
  error := rfl

/-- A line that finds no list, and no event that is not waited on. -/
theorem follows_wait (hwait : Closes queue .wait) :
    Follows prompt none (line :: lines) queue [] [queue] .closed
      ⟨prompt ++ queue.flatMap Event.render, [line], taken,
        some (.mailboxClosed "console")⟩ where
  handed := rfl
  count := by simp
  sent := by simp
  earlier := by simp
  last := by simpa [Ending.next] using hwait
  stopped := by simp
  inputOver := nofun
  closed := by simp
  output := by simp [bannerText]
  error := rfl

end Follows

/-! ## Whole sessions -/

theorem converse_follows (prompt : Text) (texts : List Text) {s : State (List (List Event))}
    {queue : List Event} {lists : List (List Event)} (hs : s.eager answering = (lists, queue))
    (hsupplied : Supplied texts.length queue lists) :
    ∃ rounds ending, Follows prompt none (texts.map Line.ofRaw) queue lists rounds ending
      (converse answering prompt s (texts.map Utf8.encode)) := by
  induction texts generalizing s queue lists with
  | nil =>
    exact ⟨[], .inputOver, rfl, by simp, by simp, by simp, by simp, nofun, fun _ => rfl, nofun,
      by simp [converse, bannerText], rfl⟩
  | cons text texts ih =>
    have heager : { s with inbox := s.inbox ++ [Line.ofRaw text] : State _ }.eager answering =
        (lists.tail, queue ++ lists.headD []) := by
      rw [State.eager_hand, hs, answering_eq]
    obtain ⟨round, next, left, hall, hcloses, hleft, htext, hnext⟩ :=
      respond_eager answering { s with inbox := s.inbox ++ [Line.ofRaw text] }
    rw [heager] at hall hnext
    have hqueue : queue ++ lists.headD [] = round ++ left := hall
    simp only [List.map_cons, converse, step, Utf8.decode_encode, htext]
    cases next with
    | read =>
      obtain ⟨s', hs', heager'⟩ := hnext
      obtain ⟨rounds, ending, hrest⟩ := ih heager' (hsupplied.tail hqueue hcloses)
      rw [hs']
      exact ⟨_, _, hrest.cons hqueue hcloses⟩
    | stop =>
      rw [hnext]
      exact ⟨_, _, follows_stop hqueue hcloses⟩
    | wait =>
      obtain rfl := hleft rfl
      rw [List.append_nil] at hqueue
      obtain rfl : lists = [] := hsupplied.eq_nil (by rw [hqueue]; exact hcloses)
      obtain rfl : queue = round := by simpa using hqueue
      rw [hnext]
      exact ⟨_, _, follows_wait hcloses⟩

/-- A session over an input follows the events that its lines are answered with: the n-th line with
the n-th list, and no event comes any more when a line finds no list. -/
theorem run_follows (prompt : Text) (banner : Option Text) (input : Text)
    (lists : List (List Event)) (h : Supplied (lines input).length [] lists) :
    ∃ rounds ending, Follows prompt banner ((lines input).map Line.ofRaw) [] lists rounds ending
      (run answering lists prompt banner (Utf8.encode input)) := by
  obtain ⟨rounds, ending, hfollows⟩ :=
    converse_follows prompt (lines input) (s := { service := lists }) rfl h
  rw [← rawLines_encode] at hfollows
  refine ⟨rounds, ending, { hfollows with output := ?_ }⟩
  simp only [run, hfollows.output, bannerText, List.nil_append, List.append_assoc]

/-- After a banner, an event that is left over by the first of three lines begins the response to the
second, and the third line finds no list. -/
theorem run_follows_surplus :
    Supplied (lines "a\n b \nc").length [] [[.line "x", .last "y", .line "z"], [.last "w"]] ∧
      (run answering [[.line "x", .last "y", .line "z"], [.last "w"]] "> " (some "hi")
        (Utf8.encode "a\n b \nc")).output = ("hi\n> x\ny\n> z\nw\n> " : Text) ∧
      ∃ rounds ending, Follows "> " (some "hi") ((lines "a\n b \nc").map Line.ofRaw) []
        [[.line "x", .last "y", .line "z"], [.last "w"]] rounds ending
        (run answering [[.line "x", .last "y", .line "z"], [.last "w"]] "> " (some "hi")
          (Utf8.encode "a\n b \nc")) := by
  have hsupplied : Supplied (lines "a\n b \nc").length []
      [[.line "x", .last "y", .line "z"], [.last "w"]] := by
    unfold Supplied
    decide
  exact ⟨hsupplied, by decide +kernel, run_follows _ _ _ _ hsupplied⟩

end Session

end ClusterConsole
