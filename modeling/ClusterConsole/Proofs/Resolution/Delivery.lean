/-
What handlers receive (`delivered_validated`): a command comes from a line whose tokens are those of
its path and options that can be read, and its registration is all that the registry has answered
the look-up of that path with.

`Traffic` is the state of all stages while lines come in at any time, whatever handlers do with the
registry meanwhile, and messages are taken in any order. Every message on its way is sound
(`Traffic.Sound`): it says no more than the stages before it have found out. The path of a command
is derived twice, for the look-up and for the command; that both agree is said by `ofLine_ok`.
-/
import ClusterConsole.Proofs.Console.Response
import ClusterConsole.Proofs.Registry.Barrier
import ClusterConsole.Proofs.Resolution.Cycle

namespace ClusterConsole

open Relation (ReflTransGen)

/-! ## Commands -/

def TokenizedLine.Genuine (l : TokenizedLine) : Prop := Token.tokenize l.line.text = .ok l.tokens

theorem Line.genuine_of_tokenize {line : Line} {l : TokenizedLine} (h : line.tokenize = .ok l) :
    l.Genuine := by
  obtain ⟨tokens, htokens, rfl⟩ := map_eq_ok.1 h
  exact htokens

namespace CommandPath

/-- The tokens that spell a path are its segments and then, if there are more, one that begins
options and all that follow it. -/
theorem tokens_of_ofTokens {tokens : List Text} {p : CommandPath} (h : ofTokens tokens = .ok p) :
    tokens = p.segments ++ tokens.drop p.length ∧
      ∀ t ∈ (tokens.drop p.length).head?, beginsOptions t = true := by
  have hsegments : p.segments = leading tokens := segments_of_ofSegments h
  have hsplit : leading tokens ++ tokens.dropWhile (!beginsOptions ·) = tokens :=
    List.takeWhile_append_dropWhile
  have hdrop : tokens.drop p.length = tokens.dropWhile (!beginsOptions ·) := by
    rw [length, hsegments]
    nth_rewrite 2 [← hsplit]
    exact List.drop_left
  rw [hdrop]
  refine ⟨by rw [hsegments, hsplit], fun t ht => ?_⟩
  have hhead := List.head?_dropWhile_not (!beginsOptions ·) tokens
  rw [Option.mem_def] at ht
  rw [ht] at hhead
  simpa using hhead

end CommandPath

/-- A command whose parts agree: its tokens are those of its line, they are the segments of its path
and its options, and these can be read as the registration that the path selects declares them. -/
structure Command.Coherent (c : Command) : Prop where
  tokens : Token.tokenize c.line.line.text = .ok c.line.tokens
  split : c.line.tokens = c.path.segments ++ c.optionTokens
  options : c.optionTokens = [] ∨ ∃ t ts, c.optionTokens = t :: ts ∧ t.head? = some '-'
  parsed : ∃ p, c.parseOptions = .ok p
  selected : c.registration.path.selectedBy c.path = true

/-- The look-up for a line asks for the path of every command that the line can become. -/
theorem Lookup.ofLine_ok {t : TokenizedLine} {l : Lookup} (h : Lookup.ofLine t = .ok l) :
    l.origin = some t ∧ ∃ p, CommandPath.ofTokens t.tokens = .ok p ∧ l.paths = [p] ∧
      ∀ r, Command.ofLine r t = .ok ⟨p, r, t⟩ := by
  obtain ⟨p, hp, rfl⟩ := map_eq_ok.1 h
  refine ⟨rfl, p, hp, rfl, fun r => ?_⟩
  rw [Command.ofLine, hp]
  rfl

/-- A response that makes its line a command has one entry, and the line has been bound to it. -/
theorem Response.resolve_execute {r : Response} {c : Command}
    (h : r.resolve = some (.dispatch (.execute c))) :
    r.origin = some c.line ∧ r.catalog.entries = [c.registration] ∧
      CommandPath.ofTokens c.line.tokens = .ok c.path ∧ ∃ p, c.parseOptions = .ok p := by
  obtain ⟨l, hl, h⟩ := Option.map_eq_some_iff.1 h
  split at h
  · cases h
  · rename_i registration hentries
    cases hcommand : Command.ofLine registration l with
    | error e =>
      simp only [Dispatch.bind, hcommand] at h
      cases h
    | ok command =>
      cases hoptions : command.parseOptions with
      | error e =>
        simp only [Dispatch.bind, hcommand, hoptions] at h
        cases h
      | ok p =>
        simp only [Dispatch.bind, hcommand, hoptions] at h
        cases h
        obtain ⟨path, hpath, rfl⟩ := map_eq_ok.1 hcommand
        exact ⟨hl, hentries, hpath, p, hoptions⟩
  · cases h

/-- A command that a response to the look-up of its line leads to is coherent, and its registration
is all that the response carries. -/
theorem Command.coherent_of_resolve {catalog : Catalog} {t : TokenizedLine} {l : Lookup}
    {c : Command} (ht : t.Genuine) (hl : Lookup.ofLine t = .ok l)
    (h : Response.resolve ⟨catalog.select l.paths, l.origin⟩ = some (.dispatch (.execute c))) :
    c.line = t ∧ l.paths = [c.path] ∧ (catalog.select [c.path]).entries = [c.registration] ∧
      c.Coherent := by
  obtain ⟨horigin, hentries, hpath, hparsed⟩ := Response.resolve_execute h
  obtain ⟨horigin', p, hp, hpaths, -⟩ := Lookup.ofLine_ok hl
  obtain rfl : t = c.line := Option.some.inj (horigin'.symm.trans horigin)
  rw [hpath] at hp
  cases hp
  have honly : (catalog.select [c.path]).entries = [c.registration] := by
    rw [← hpaths]
    exact hentries
  have hselected : c.registration ∈ (catalog.select [c.path]).entries := by simp [honly]
  obtain ⟨hsplit, hoptions⟩ := CommandPath.tokens_of_ofTokens hpath
  refine ⟨rfl, hpaths, honly, ht, hsplit, ?_, hparsed, ?_⟩
  · cases hrest : c.optionTokens with
    | nil => exact Or.inl rfl
    | cons t ts =>
      have hbegins : CommandPath.beginsOptions t = true :=
        hoptions t (by rw [show c.line.tokens.drop c.path.length = t :: ts from hrest]; rfl)
      exact Or.inr ⟨t, ts, rfl, by simpa [CommandPath.beginsOptions] using hbegins⟩
  · simpa [Catalog.select] using (List.mem_filter.1 hselected).2

/-- The answer to the look-up for a line can always be made a command of it: the answer carries the
line, whose tokens then spell the path that was asked for once more, and the options begin within
them. -/
structure Lookup.Binds (l : Lookup) (t : TokenizedLine) : Prop where
  origin : ∀ {ρ : Type} (registry : Registry ρ), (registry.answer (.lookup l)).origin = some t
  command : ∀ registration, ∃ c, Command.ofLine registration t = .ok c ∧
    c.registration = registration ∧ c.line = t ∧ l.paths = [c.path] ∧
    c.path.length ≤ c.line.tokens.length

theorem Lookup.binds_of_ofLine {t : TokenizedLine} {l : Lookup} (h : Lookup.ofLine t = .ok l) :
    l.Binds t := by
  obtain ⟨horigin, p, hp, hpaths, hcommand⟩ := Lookup.ofLine_ok h
  refine ⟨fun _ => horigin, fun registration => ⟨_, hcommand registration, rfl, rfl, hpaths, ?_⟩⟩
  -- the segments of a path are among the tokens that spell it
  have hsegments : p.segments = CommandPath.leading t.tokens :=
    CommandPath.segments_of_ofSegments hp
  rw [CommandPath.length, hsegments]
  exact (List.takeWhile_sublist _).length_le

/-- A look-up that has been made for a line. -/
def Query.IsForLine (q : Query) : Prop :=
  ∃ (t : TokenizedLine) (l : Lookup), t.Genuine ∧ Lookup.ofLine t = .ok l ∧ q = .lookup l

/-! ## Stages and handlers -/

/-- Who puts a query to the registry. -/
inductive Asker
  | resolver
  /-- The handler at a place. -/
  | handler (place : Nat)
deriving DecidableEq

/-- The stages with the messages on their way, and what has come of those that arrived. -/
structure Traffic where
  /-- Whether the registry holds queries back until all handlers have answered. -/
  barrier : Bool
  /-- What has been done with the registry, the earliest first. -/
  operations : List (Operation Asker) := []
  /-- The messages that no stage has taken yet. -/
  waiting : List StageMessage := []
  /-- The commands that handlers have been sent, with the handler, the earliest first. -/
  delivered : List (HandlerRef × Command) := []
  /-- What the operator has been told, the earliest first. -/
  told : List Event := []

namespace Traffic

def answers (f : Traffic) : List (Asker × Response) := Registry.answers f.barrier f.operations

def send (f : Traffic) (ms : List StageMessage) : Traffic := { f with waiting := f.waiting ++ ms }

/-- The answers for the resolver among those of an operation, as the messages that bring them. -/
def matched (f : Traffic) (op : Operation Asker) : List StageMessage :=
  ((Registry.answersTo f.barrier f.operations op).filter fun a : Asker × Response =>
    a.1 = .resolver).map fun a => .matched a.2

/-- Does something with the registry, whose answers to the resolver are on their way then. -/
def operate (f : Traffic) (op : Operation Asker) : Traffic :=
  { f with operations := f.operations ++ [op], waiting := f.waiting ++ f.matched op }

/-- Hands a line in: one that asks for nothing is answered at once. -/
def submit (f : Traffic) (l : Line) : Traffic :=
  if l.asks then f.send [.line l] else { f with told := f.told ++ [Event.done] }

/-- Lets the stage that a message is for take it. -/
def take (f : Traffic) : StageMessage → Traffic
  | .line l =>
    match l.tokenize with
    | .ok tokenized => f.send [.tokenized tokenized]
    | .error e => f.send [.dispatch (.inform (.lexical l e))]
  | .tokenized l =>
    match l.lookup with
    | .ok lookup => f.send [.lookup lookup]
    | .error event => f.send [.dispatch (.inform event)]
  | .lookup l => f.operate (.query (.lookup l) .resolver)
  | .matched r =>
    match r.resolve with
    | none => f
    | some (.dispatch d) => f.send [.dispatch d]
    | some (.resubmit l) => f.send [.line l]
  | .dispatch (.execute c) =>
    { f with delivered := f.delivered ++ [(c.registration.handler, c)] }
  | .dispatch (.inform e) => { f with told := f.told ++ [e] }

/-- What can happen: a raw line comes in, something else than the resolver does something with the
registry, or a message is taken, whichever it is. -/
inductive Step (f : Traffic) : Traffic → Prop
  | submit (raw : Text) : Step f (f.submit (Line.ofRaw raw))
  | outside (op : Operation Asker) (hop : ∀ q, op.query? ≠ some (q, .resolver)) :
      Step f (f.operate op)
  | take {before after : List StageMessage} {m : StageMessage}
      (h : f.waiting = before ++ m :: after) :
      Step f (Traffic.take { f with waiting := before ++ after } m)

/-! ## What messages say -/

/-- The registry has answered the look-up for a line with a response. -/
structure Answered (f : Traffic) (l : Lookup) (r : Response) : Prop where
  given : (Asker.resolver, r) ∈ f.answers
  answers : Registry.Answers f.operations (.lookup l, Asker.resolver) (Asker.resolver, r)

/-- A command that handlers may receive: it is coherent, and the registry has answered the look-up
of its path, made for its line, with its registration only. -/
structure Validates (f : Traffic) (c : Command) : Prop where
  coherent : c.Coherent
  only : ∃ l r, Lookup.ofLine c.line = .ok l ∧ l.paths = [c.path] ∧ f.Answered l r ∧
    r.catalog.entries = [c.registration]

/-- What a message says has been found out by the stages before. -/
def Says (f : Traffic) : StageMessage → Prop
  | .line _ => True
  | .tokenized t => t.Genuine
  | .lookup l => (Query.lookup l).IsForLine
  | .matched r => ∃ (t : TokenizedLine) (l : Lookup), t.Genuine ∧ Lookup.ofLine t = .ok l ∧
      f.Answered l r
  | .dispatch (.execute c) => f.Validates c
  | .dispatch (.inform _) => True

/-- All messages on their way say what has been found out, the resolver has asked for nothing else
than the paths of lines, and handlers have received only commands that they may receive. -/
structure Sound (f : Traffic) : Prop where
  asked : ∀ q, (q, Asker.resolver) ∈ received f.operations → q.IsForLine
  waiting : ∀ m ∈ f.waiting, f.Says m
  delivered : ∀ d ∈ f.delivered, d.1 = d.2.registration.handler ∧ f.Validates d.2

/-- More may have been done with the registry since. -/
structure Precedes (f f' : Traffic) : Prop where
  barrier : f'.barrier = f.barrier
  operations : f.operations <+: f'.operations

variable {f f' : Traffic}

theorem Answered.mono (hf : f.Precedes f') {l : Lookup} {r : Response} (h : f.Answered l r) :
    f'.Answered l r := by
  refine ⟨?_, h.answers.mono hf.operations⟩
  rw [Traffic.answers, hf.barrier]
  exact (Registry.answers_mono f.barrier hf.operations).subset h.given

theorem Validates.mono (hf : f.Precedes f') {c : Command} (h : f.Validates c) :
    f'.Validates c := by
  obtain ⟨l, r, hl, hpaths, hanswered, honly⟩ := h.only
  exact ⟨h.coherent, l, r, hl, hpaths, hanswered.mono hf, honly⟩

theorem Says.mono (hf : f.Precedes f') {m : StageMessage} (h : f.Says m) : f'.Says m := by
  cases m with
  | line l => trivial
  | tokenized t => exact h
  | lookup l => exact h
  | matched r =>
    obtain ⟨t, l, ht, hl, hanswered⟩ := h
    exact ⟨t, l, ht, hl, hanswered.mono hf⟩
  | dispatch d =>
    cases d with
    | execute c => exact Validates.mono hf h
    | inform e => trivial

/-! ## Each step -/

/-- While nothing is done with the registry, new messages and deliveries have to be as sound as the
old ones. -/
theorem Sound.of_same (h : f.Sound) (hbarrier : f'.barrier = f.barrier)
    (hoperations : f'.operations = f.operations) (hwaiting : ∀ m ∈ f'.waiting, f.Says m)
    (hdelivered : ∀ d ∈ f'.delivered, d.1 = d.2.registration.handler ∧ f.Validates d.2) :
    f'.Sound := by
  have hsame : f.Precedes f' := ⟨hbarrier, by rw [hoperations]⟩
  refine ⟨?_, fun m hm => (hwaiting m hm).mono hsame,
    fun d hd => (hdelivered d hd).imp_right (Validates.mono hsame)⟩
  rw [hoperations]
  exact h.asked

theorem Sound.send (h : f.Sound) {m : StageMessage} (hm : f.Says m) : (f.send [m]).Sound := by
  refine h.of_same rfl rfl (fun m' hm' => ?_) h.delivered
  rcases List.mem_append.1 hm' with hm' | hm'
  · exact h.waiting m' hm'
  · rw [List.mem_singleton.1 hm']
    exact hm

/-- What is done with the registry may set answers to the resolver free, also those to look-ups that
had to wait; each of them is the answer to a look-up for a line. -/
theorem Sound.operate (h : f.Sound) {op : Operation Asker}
    (hop : ∀ q, op.query? = some (q, .resolver) → q.IsForLine) : (f.operate op).Sound := by
  have hmore : f.Precedes (f.operate op) := ⟨rfl, List.prefix_append _ _⟩
  have hasked : ∀ q, (q, Asker.resolver) ∈ received (f.operate op).operations → q.IsForLine := by
    intro q hq
    rw [Traffic.operate, received_concat, List.mem_append, Option.mem_toList] at hq
    exact hq.elim (h.asked q) (hop q)
  refine ⟨hasked, fun m hm => ?_, fun d hd => ?_⟩
  · rcases List.mem_append.1 hm with hm | hm
    · exact Says.mono hmore (h.waiting m hm)
    · obtain ⟨⟨address, r⟩, hgiven, rfl⟩ := List.mem_map.1 hm
      obtain ⟨hgiven, haddress⟩ := List.mem_filter.1 hgiven
      obtain rfl : address = .resolver := of_decide_eq_true haddress
      have hanswer : (Asker.resolver, r) ∈ (f.operate op).answers := by
        rw [Traffic.answers, Traffic.operate, Registry.answers_concat]
        exact List.mem_append_right _ hgiven
      obtain ⟨⟨q, asker⟩, hq, hanswers⟩ := Registry.received_of_mem_answers hanswer
      obtain rfl : Asker.resolver = asker := hanswers.address
      obtain ⟨t, l, ht, hl, rfl⟩ := hasked q hq
      exact ⟨t, l, ht, hl, hanswer, hanswers⟩
  · exact (h.delivered d hd).imp_right (Validates.mono hmore)

/-- A response that answers the look-up for a line makes a command of that line that handlers may
receive, if it makes one at all. -/
theorem validates_of_resolve {t : TokenizedLine} {l : Lookup} {r : Response} {c : Command}
    (ht : t.Genuine) (hl : Lookup.ofLine t = .ok l) (hanswered : f.Answered l r)
    (h : r.resolve = some (.dispatch (.execute c))) : f.Validates c := by
  obtain ⟨moment, -, heq⟩ := hanswered.answers
  obtain rfl : r = ⟨(entries moment).select l.paths, l.origin⟩ := congrArg Prod.snd heq
  obtain ⟨rfl, hpaths, honly, hcoherent⟩ := Command.coherent_of_resolve ht hl h
  refine ⟨hcoherent, l, _, hl, hpaths, hanswered, ?_⟩
  rw [← honly, hpaths]

theorem Sound.take (h : f.Sound) {m : StageMessage} (hm : f.Says m) : (f.take m).Sound := by
  cases m with
  | line l =>
    rw [Traffic.take]
    cases htokens : l.tokenize with
    | ok tokenized => exact h.send (Line.genuine_of_tokenize htokens)
    | error e => exact h.send trivial
  | tokenized t =>
    rw [Traffic.take]
    cases hlookup : t.lookup with
    | ok l => exact h.send ⟨t, l, hm, mapError_eq_ok.1 hlookup, rfl⟩
    | error e => exact h.send trivial
  | lookup l =>
    refine h.operate fun q hq => ?_
    cases hq
    exact hm
  | matched r =>
    obtain ⟨t, l, ht, hl, hanswered⟩ := hm
    rw [Traffic.take]
    cases hresolve : r.resolve with
    | none => exact h
    | some resolution =>
      cases resolution with
      | dispatch d =>
        refine h.send ?_
        cases d with
        | execute c => exact validates_of_resolve ht hl hanswered hresolve
        | inform e => trivial
      | resubmit next => exact h.send trivial
  | dispatch d =>
    cases d with
    | inform e => exact h.of_same rfl rfl h.waiting h.delivered
    | execute c =>
      refine h.of_same rfl rfl h.waiting fun d hd => ?_
      rcases List.mem_append.1 hd with hd | hd
      · exact h.delivered d hd
      · cases List.mem_singleton.1 hd
        exact ⟨rfl, hm⟩

theorem Sound.step (h : f.Sound) (hstep : Step f f') : f'.Sound := by
  cases hstep with
  | submit raw =>
    rw [submit]
    split_ifs
    · exact h.send trivial
    · exact h.of_same rfl rfl h.waiting h.delivered
  | outside op hop => exact h.operate fun q hq => absurd hq (hop q)
  | @take before after m hwaiting =>
    have hremaining : ∀ m' ∈ before ++ after, f.Says m' := by
      intro m' hm'
      refine h.waiting m' ?_
      rw [hwaiting]
      simp only [List.mem_append, List.mem_cons] at hm' ⊢
      exact hm'.imp_right .inr
    have hsound : Sound { f with waiting := before ++ after } :=
      h.of_same rfl rfl hremaining h.delivered
    have hm : f.Says m := h.waiting m (by simp [hwaiting])
    have hsame : f.Precedes { f with waiting := before ++ after } := ⟨rfl, List.prefix_rfl⟩
    exact hsound.take (hm.mono hsame)

def start (barrier : Bool) : Traffic := { barrier }

theorem sound_of_reaches {barrier : Bool} (h : ReflTransGen Step (start barrier) f) : f.Sound := by
  induction h with
  | refl => exact ⟨by simp [start, received], by simp [start], by simp [start]⟩
  | tail _ hstep ih => exact ih.step hstep

/-- Takes the message that waits the longest, up to `n` times. -/
def advance (f : Traffic) : Nat → Traffic
  | 0 => f
  | n + 1 =>
    match f.waiting with
    | [] => f
    | m :: rest => (Traffic.take { f with waiting := rest } m).advance n

theorem reaches_advance (f : Traffic) (n : Nat) : ReflTransGen Step f (f.advance n) := by
  induction n generalizing f with
  | zero => exact .refl
  | succ n ih =>
    rw [advance]
    split
    · exact .refl
    · rename_i m rest hwaiting
      exact .head (@Step.take f [] rest m hwaiting) (ih _)

end Traffic

/-! ## A console -/

/-- What a console has made sure of when a handler runs a command: it is coherent, its registration
is the only one that its path selects, and the handler is the one that has made the registration. -/
structure Console.Hands (s : Console) (c : Command) : Prop where
  coherent : c.Coherent
  only : (s.catalog.select [c.path]).entries = [c.registration]
  own : ∃ h rs, s.handlers[c.registration.handler.place]? = some h ∧
    h.registrations c.registration.handler.place = some rs ∧ c.registration ∈ rs

theorem Catalog.resolve_of_attempt {catalog : Catalog} {line : Line} {c : Command}
    (h : catalog.attempt line = .dispatch (.execute c)) :
    ∃ t l, line.tokenize = .ok t ∧ Lookup.ofLine t = .ok l ∧
      Response.resolve ⟨catalog.select l.paths, l.origin⟩ = some (.dispatch (.execute c)) := by
  rw [Catalog.attempt] at h
  split at h
  · cases h
  · rename_i t htokens
    split at h
    · cases h
    · rename_i l hlookup
      refine ⟨t, l, htokens, mapError_eq_ok.1 hlookup, ?_⟩
      cases hresolve : Response.resolve ⟨catalog.select l.paths, l.origin⟩ with
      | none =>
        rw [hresolve] at h
        cases h
      | some resolution =>
        rw [hresolve] at h
        exact congrArg some h

/-- However often a line is sent back, the command that it settles on is one that may run. -/
theorem Console.hands_of_settles {s : Console} (hserved : s.Served) {line : Line} {d : Dispatch}
    (h : Settles s.catalog line d) : ∀ c, d = .execute c → s.Hands c := by
  induction h with
  | again _ _ ih => exact ih
  | now hattempt =>
    rintro c rfl
    obtain ⟨t, l, ht, hl, hresolve⟩ := Catalog.resolve_of_attempt hattempt
    obtain ⟨-, -, honly, hcoherent⟩ :=
      Command.coherent_of_resolve (Line.genuine_of_tokenize ht) hl hresolve
    have hselected : c.registration ∈ (s.catalog.select [c.path]).entries := by simp [honly]
    exact ⟨hcoherent, honly, hserved _ (Catalog.mem_of_mem_select hselected)⟩

/-- Handlers receive only commands that have been validated and are not ambiguous. This holds in
every run of the stages, with lines handed in at any time and anything done with the registry in
between; and in every console that has been set up, with any scripted handlers, where the command
also goes to the handler that registered it. Conversely, the answer to the look-up for a line can
always be made a command of that line. -/
theorem delivered_validated :
    (∀ barrier f, ReflTransGen Traffic.Step (Traffic.start barrier) f →
      ∀ d ∈ f.delivered, d.1 = d.2.registration.handler ∧ f.Validates d.2) ∧
    (∀ c service scripts s, Console.setup c service scripts = .ok s → ∀ lines line command,
      (s.submitAll lines).1.catalog.settle line = .execute command →
        (s.submitAll lines).1.Hands command) ∧
    ∀ t l, Lookup.ofLine t = .ok l → l.Binds t := by
  refine ⟨fun barrier f hf => (Traffic.sound_of_reaches hf).delivered, ?_,
    fun t l => Lookup.binds_of_ofLine⟩
  intro c service scripts s hsetup lines line command hsettle
  have hserved : (s.submitAll lines).1.Served :=
    (Console.served_of_setup hsetup).of_agrees (Console.submitAll_frame s lines)
  exact Console.hands_of_settles hserved (Catalog.settles_iff.2 hsettle) command rfl

/-- An abbreviated line with a quoted option. -/
def quotedLine : TokenizedLine := ⟨Line.ofRaw " con '-k' x ", ["con", "-k", "x"]⟩

/-- The stages with the default commands registered and that line handed in. -/
def quotedTraffic : Traffic :=
  ((Traffic.start true).operate
    (.registered (Response.ofList Console.standard.catalog.entries))).submit quotedLine.line

/-- The command `config` that the line amounts to. -/
def quotedCommand : Command :=
  ⟨⟨["con"], by decide, by decide⟩, ⟨⟨"config", 2⟩, Handler.configPath,
    some Handler.configOptions, some "Show the console configuration"⟩, quotedLine⟩

/-- With the default configuration the line is run as a command of the handler of `config`, and so
it is when it is handed in right after the handlers have registered. -/
theorem delivered_validated_quoted :
    (quotedTraffic.advance 5).delivered = [(⟨"config", 2⟩, quotedCommand)] ∧
      (quotedTraffic.advance 5).Validates quotedCommand ∧
      Console.standard.Hands quotedCommand ∧
      ∃ l, Lookup.ofLine quotedLine = .ok l ∧ l.Binds quotedLine := by
  have hdelivered : (quotedTraffic.advance 5).delivered = [(⟨"config", 2⟩, quotedCommand)] := by
    decide +kernel
  have hreaches : ReflTransGen Traffic.Step (Traffic.start true) (quotedTraffic.advance 5) :=
    ((ReflTransGen.single (.outside _ (by rintro q ⟨⟩))).tail (.submit " con '-k' x ")).trans
      (Traffic.reaches_advance _ 5)
  have hsettle : Console.standard.catalog.settle quotedLine.line = .execute quotedCommand := by
    decide +kernel
  refine ⟨hdelivered, ?_, ?_, _, rfl, delivered_validated.2.2 _ _ rfl⟩
  · exact (delivered_validated.1 true _ hreaches (⟨"config", 2⟩, quotedCommand)
      (by rw [hdelivered]; exact List.mem_singleton_self _)).2
  · exact delivered_validated.2.1 {} _ [] _ Console.setup_standard [] quotedLine.line _ hsettle

end ClusterConsole
