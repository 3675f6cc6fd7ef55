/-
The cycle of an ambiguous line through the stages (`cycle_ends`): tokenizer, resolver and registry
pass messages on, and a line that is sent back as a request for help begins anew. However often a
line is sent back, the stages come to rest, and the executor has then received one message for it.
The path of a request for help is one segment longer than that of the line it is about, and a path
that is longer than every registered one has no matches.

`Flow` is the state of the stages with the messages on their way. There is never more than one, so
that every run is determined (`Leads`): passing a line on until the resolver has decided on it is
`Catalog.attempt` (`leads_attempt`), and doing so until it is not sent back any more is a chain of
these (`Retries`).
-/
import ClusterConsole.Proofs.Resolution.Settling

namespace ClusterConsole

open Relation (ReflTransGen)

/-! ## Stages and messages -/

/-- A message on its way to a stage. -/
inductive StageMessage
  /-- A line, to the tokenizer. -/
  | line (l : Line)
  /-- A line with its tokens, to the resolver. -/
  | tokenized (l : TokenizedLine)
  /-- A question, to the registry. -/
  | lookup (l : Lookup)
  /-- The answer of the registry, to the resolver. -/
  | matched (r : Response)
  /-- What has become of a line, to the executor. -/
  | dispatch (d : Dispatch)

/-- The stages between the filter and the handlers. -/
structure Flow where
  registry : Registry Unit
  /-- The messages that no stage has taken yet. -/
  waiting : List StageMessage
  /-- The lines that the resolver has submitted again, the earliest first. -/
  again : List Line
  /-- What the executor has received, the earliest first. -/
  received : List Dispatch

namespace Flow

/-- A line is on its way to the tokenizer, and nothing else. -/
def start (r : Registry Unit) (l : Line) : Flow := ⟨r, [.line l], [], []⟩

/-- Puts messages on their way. -/
def send (f : Flow) (ms : List StageMessage) : Flow := { f with waiting := f.waiting ++ ms }

/-- Lets the stage that a message is for take it. -/
def take (f : Flow) : StageMessage → Flow
  | .line l =>
    match l.tokenize with
    | .ok tokenized => f.send [.tokenized tokenized]
    | .error e => f.send [.dispatch (.inform (.lexical l e))]
  | .tokenized l =>
    match l.lookup with
    | .ok lookup => f.send [.lookup lookup]
    | .error event => f.send [.dispatch (.inform event)]
  | .lookup l =>
    let (registry, answers) := f.registry.handle (.query (.lookup l) ())
    { f with registry }.send (answers.map fun a : Unit × Response => .matched a.2)
  | .matched r =>
    match r.resolve with
    | none => f
    | some (.dispatch d) => f.send [.dispatch d]
    | some (.resubmit l) => { f with again := f.again ++ [l] }.send [.line l]
  | .dispatch d => { f with received := f.received ++ [d] }

/-- One of the messages is taken, whichever it is. -/
inductive Step (f : Flow) : Flow → Prop
  | take {before after : List StageMessage} {m : StageMessage}
      (h : f.waiting = before ++ m :: after) :
      Step f (take { f with waiting := before ++ after } m)

theorem step_single {registry : Registry Unit} {m : StageMessage} {again : List Line}
    {received : List Dispatch} {f : Flow} :
    Step ⟨registry, [m], again, received⟩ f ↔ f = take ⟨registry, [], again, received⟩ m := by
  constructor
  · rintro @⟨before, after, m', h⟩
    cases before with
    | nil =>
      cases h
      rfl
    | cons m'' before => simp at h
  · rintro rfl
    exact @Step.take _ [] [] _ rfl

/-- Without messages nothing happens any more. -/
theorem not_step {registry : Registry Unit} {again : List Line} {received : List Dispatch}
    (f : Flow) : ¬ Step ⟨registry, [], again, received⟩ f := by
  rintro @⟨before, after, m, h⟩
  simp at h

/-! ## Determined runs -/

/-- There is only one way to go on from `f`, and it leads to `g`. -/
inductive Leads : Flow → Flow → Prop
  | refl (f : Flow) : Leads f f
  | step {f f' g : Flow} (hstep : ∀ x, Step f x ↔ x = f') (h : Leads f' g) : Leads f g

theorem Leads.trans {f g k : Flow} (h : Leads f g) (h' : Leads g k) : Leads f k := by
  induction h with
  | refl => exact h'
  | step hstep _ ih => exact .step hstep (ih h')

theorem Leads.single {registry : Registry Unit} {m : StageMessage} {again : List Line}
    {received : List Dispatch} {f g : Flow}
    (hf : take ⟨registry, [], again, received⟩ m = f) (h : Leads f g) :
    Leads ⟨registry, [m], again, received⟩ g := by
  subst hf
  exact .step (fun _ => step_single) h

theorem Leads.reaches {f g : Flow} (h : Leads f g) : ReflTransGen Step f g := by
  induction h with
  | refl => exact .refl
  | step hstep _ ih => exact .head ((hstep _).2 rfl) ih

/-- Whatever has happened on the way to a state of rest, it is still reached. -/
theorem Leads.reaches_of_reaches {f g x : Flow} (h : Leads f g) (hrest : ∀ x, ¬ Step g x)
    (hx : ReflTransGen Step f x) : ReflTransGen Step x g := by
  induction h with
  | refl =>
    rcases hx.cases_head with rfl | ⟨y, hy, -⟩
    · exact .refl
    · exact absurd hy (hrest y)
  | step hstep h ih =>
    rcases hx.cases_head with rfl | ⟨y, hy, hyx⟩
    · exact .head ((hstep _).2 rfl) h.reaches
    · rw [(hstep y).1 hy] at hyx
      exact ih hrest hyx

/-- What leads to a state of rest does not go on for ever. -/
theorem Leads.halts {f g : Flow} (h : Leads f g) (hrest : ∀ x, ¬ Step g x) :
    Acc (fun x' x => Step x x') f := by
  induction h with
  | refl g => exact ⟨g, fun x hx => absurd hx (hrest x)⟩
  | @step f f' _ hstep _ ih =>
    refine ⟨f, fun x hx => ?_⟩
    rw [(hstep x).1 hx]
    exact ih hrest

/-! ## Once through the stages -/

/-- The state of the stages when it has been decided what becomes of a line. -/
def decided (registry : Registry Unit) (again : List Line) (received : List Dispatch) :
    Resolution → Flow
  | .dispatch d => ⟨registry, [.dispatch d], again, received⟩
  | .resubmit next => ⟨registry, [.line next], again ++ [next], received⟩

/-- A line passes through the stages as it is looked up once; a registry that is ready stays as it
is. -/
theorem leads_attempt {registry : Registry Unit} (hready : registry.isReady = true) (line : Line)
    (again : List Line) (received : List Dispatch) :
    Leads ⟨registry, [.line line], again, received⟩
      (decided registry again received (registry.catalog.attempt line)) := by
  unfold Catalog.attempt
  cases htokens : line.tokenize with
  | error e =>
    refine Leads.single ?_ (.refl _)
    simp only [take, htokens]
    rfl
  | ok tokenized =>
    refine Leads.single (f := ⟨registry, [.tokenized tokenized], again, received⟩) ?_ ?_
    · simp only [take, htokens]
      rfl
    cases hlookup : tokenized.lookup with
    | error event =>
      refine Leads.single ?_ (.refl _)
      simp only [take, hlookup]
      rfl
    | ok l =>
      refine Leads.single (f := ⟨registry, [.lookup l], again, received⟩) ?_ ?_
      · simp only [take, hlookup]
        rfl
      refine Leads.single (f := ⟨registry, [.matched ⟨registry.catalog.select l.paths, l.origin⟩],
        again, received⟩) ?_ ?_
      · simp only [take, Registry.handle, hready, if_true]
        rfl
      -- the question carries the line that it is asked for, and so does the answer
      obtain ⟨p, -, rfl⟩ := map_eq_ok.1 (mapError_eq_ok.1 hlookup)
      obtain ⟨resolution, hresolution⟩ : ∃ resolution, Response.resolve
          ⟨registry.catalog.select [p], some tokenized⟩ = some resolution := ⟨_, rfl⟩
      refine Leads.single ?_ (.refl _)
      simp only [take, hlookup, hresolution, Option.getD_some]
      cases resolution <;> rfl

end Flow

/-! ## Lines that are sent back one after another -/

/-- The lines that are sent back, one after another, and what becomes of the last one. -/
inductive Retries (c : Catalog) : Line → List Line → Dispatch → Prop
  | done {line : Line} {d : Dispatch} (h : c.attempt line = .dispatch d) : Retries c line [] d
  | again {line next : Line} {lines : List Line} {d : Dispatch}
      (h : c.attempt line = .resubmit next) (hnext : Retries c next lines d) :
      Retries c line (next :: lines) d

theorem Settles.retries {c : Catalog} {line : Line} {d : Dispatch} (h : Settles c line d) :
    ∃ lines, Retries c line lines d := by
  induction h with
  | now h => exact ⟨[], .done h⟩
  | again h _ ih =>
    obtain ⟨lines, hlines⟩ := ih
    exact ⟨_, .again h hlines⟩

theorem Flow.leads_of_retries {registry : Registry Unit} (hready : registry.isReady = true)
    {line : Line} {lines : List Line} {d : Dispatch} (h : Retries registry.catalog line lines d)
    (again : List Line) : Leads ⟨registry, [.line line], again, []⟩
      ⟨registry, [], again ++ lines, [d]⟩ := by
  induction h generalizing again with
  | @done line d h =>
    have hpass := leads_attempt hready line again []
    rw [h] at hpass
    refine hpass.trans (.single ?_ (.refl _))
    rw [List.append_nil]
    rfl
  | @again line next lines d h _ ih =>
    have hpass := leads_attempt hready line again []
    rw [h] at hpass
    have hrest := ih (again ++ [next])
    rw [List.append_assoc] at hrest
    exact hpass.trans hrest

/-- What the executor gets of a line that can be cut into tokens: a command whose options can be
read, or a report of the line as unrecognized or of its options. -/
inductive Dispatch.Resolved : Dispatch → Prop
  | command {c : Command} {p : ParsedOptions} (h : c.parseOptions = .ok p) : Resolved (.execute c)
  | unrecognized (l : TokenizedLine) : Resolved (.inform (.unrecognized l))
  | options {c : Command} {e : OptionError} (h : c.parseOptions = .error e) :
      Resolved (.inform (.invalid c.line.line e.message none))

namespace Catalog

/-- Unless a line can be cut into tokens it is reported, and never sent back. -/
theorem attempt_of_error {c : Catalog} {line : Line} {e : Token.LexicalError}
    (h : Token.tokenize line.text = .error e) :
    c.attempt line = .dispatch (.inform (.lexical line e)) := by
  have hattempted := attempted c line
  generalize c.attempt line = resolution at hattempted ⊢
  cases hattempted with
  | lexical h' =>
    rw [h] at h'
    cases h'
    rfl
  | noPath ht | noMatch ht | options ht | command ht =>
    rw [h] at ht
    cases ht
  | ambiguous hp =>
    obtain ⟨tokens, ht, -⟩ := hp
    rw [h] at ht
    cases ht

theorem attempt_dispatch_of_ok {c : Catalog} {line : Line} {tokens : List Text} {d : Dispatch}
    (htokens : Token.tokenize line.text = .ok tokens) (h : c.attempt line = .dispatch d) :
    d.Resolved := by
  have hattempted := attempted c line
  rw [h] at hattempted
  cases hattempted with
  | lexical h' =>
    rw [htokens] at h'
    cases h'
  | noPath | noMatch => exact .unrecognized _
  | options _ _ he => exact .options he
  | command _ _ ho => exact .command ho

end Catalog

namespace Retries

variable {c : Catalog} {line : Line} {lines : List Line} {d : Dispatch}

/-- There are no more requests for help than segments that the longest path has, from the first one
that the line spells on. -/
theorem length_le (h : Retries c line lines d) {p : CommandPath} (hp : line.Spells p) {m : Nat}
    (hm : ∀ r ∈ c.entries, r.path.length ≤ m) : lines.length ≤ m + 1 - p.length := by
  induction h generalizing p with
  | done => simp
  | again h _ ih =>
    obtain ⟨rfl, p', hp', hle⟩ := Catalog.attempt_resubmit h
    obtain rfl := hp.unique hp'
    obtain ⟨q, hq, hlength⟩ := Line.spells_helpRequest hp
    have hrest := ih hq
    have hlongest := Catalog.longest_le hm
    rw [List.length_cons]
    omega

/-- The `k`-th request for help, counted from 0, is the line with `k + 1` words in front. -/
theorem text_eq (h : Retries c line lines d) (k : Nat) (hk : k < lines.length) :
    lines[k].text = (List.replicate (k + 1) helpWord).flatten ++ line.text := by
  induction h generalizing k with
  | done => exact absurd hk (Nat.not_lt_zero _)
  | again h _ ih =>
    obtain ⟨rfl, p, hp, -⟩ := Catalog.attempt_resubmit h
    cases k with
    | zero => simpa using Line.helpRequest_text hp
    | succ k =>
      rw [List.getElem_cons_succ, ih k (Nat.lt_of_succ_lt_succ hk), Line.helpRequest_text hp,
        List.replicate_succ' (n := k + 1)]
      simp

/-- The `k`-th request for help, counted from 0, has the tokens of the line after `k + 1` others. -/
theorem tokenize_eq (h : Retries c line lines d) (k : Nat) (hk : k < lines.length) :
    ∃ tokens, Token.tokenize line.text = .ok tokens ∧
      Token.tokenize lines[k].text = .ok (List.replicate (k + 1) helpToken ++ tokens) := by
  induction h generalizing k with
  | done => exact absurd hk (Nat.not_lt_zero _)
  | again h _ ih =>
    obtain ⟨rfl, p, hp, -⟩ := Catalog.attempt_resubmit h
    obtain ⟨tokens, htokens, -⟩ := id hp
    have hnext := Line.tokenize_helpRequest hp htokens
    refine ⟨tokens, htokens, ?_⟩
    cases k with
    | zero => exact hnext
    | succ k =>
      obtain ⟨tokens', htokens', hk'⟩ := ih k (Nat.lt_of_succ_lt_succ hk)
      rw [hnext] at htokens'
      cases htokens'
      rw [List.getElem_cons_succ, hk', List.replicate_succ' (n := k + 1)]
      simp

theorem outcome (h : Retries c line lines d) :
    (∃ e, Token.tokenize line.text = .error e ∧ lines = [] ∧ d = .inform (.lexical line e)) ∨
      (∃ tokens, Token.tokenize line.text = .ok tokens) ∧ d.Resolved := by
  induction h with
  | @done line d h =>
    cases htokens : Token.tokenize line.text with
    | error e =>
      rw [Catalog.attempt_of_error htokens] at h
      cases h
      exact Or.inl ⟨e, rfl, rfl, rfl⟩
    | ok tokens => exact Or.inr ⟨⟨tokens, rfl⟩, Catalog.attempt_dispatch_of_ok htokens h⟩
  | again h _ ih =>
    obtain ⟨rfl, p, hp, -⟩ := Catalog.attempt_resubmit h
    obtain ⟨tokens, htokens, -⟩ := id hp
    rcases ih with ⟨e, he, -⟩ | ⟨-, hd⟩
    · -- the request for help can be cut into tokens, because the line can
      rw [Line.tokenize_helpRequest hp htokens] at he
      cases he
    · exact Or.inr ⟨⟨tokens, htokens⟩, hd⟩

/-- A path has a segment, so there are no more requests for help than segments that the longest path
has. -/
theorem length_le_longest (h : Retries c line lines d) : lines.length ≤ c.longest := by
  cases h with
  | done => simp
  | again hline hnext =>
    obtain ⟨-, p, hp, -⟩ := Catalog.attempt_resubmit hline
    have hle := (Retries.again hline hnext).length_le hp fun _ => Catalog.length_le_longest
    have hne : p.length ≠ 0 := List.length_eq_zero_iff.not.2 p.ne_nil
    omega

/-- Following a line far enough finds the same requests for help. -/
theorem follow_eq (h : Retries c line lines d) {n : Nat} (hn : lines.length ≤ n) :
    c.follow n line = (lines, .dispatch d) := by
  induction h generalizing n with
  | done h => cases n <;> simp [Catalog.follow, h]
  | again h _ ih =>
    cases n with
    | zero => simp at hn
    | succ n => simp [Catalog.follow, h, ih (Nat.le_of_succ_le_succ hn)]

end Retries

/-! ## The cycle -/

/-- What the stages make of a line: the lines that they submit again, and what the executor
receives. -/
structure CycleEnds (registry : Registry Unit) (line : Line) (again : List Line) (d : Dispatch) :
    Prop where
  /-- The stages do not go on for ever. -/
  halts : Acc (fun f' f => Flow.Step f f') (Flow.start registry line)
  /-- In whatever order messages are taken, the stages come to the same rest: the executor has
  received one message, no other is on its way, and the registry is as before. -/
  rests : ∀ f, ReflTransGen Flow.Step (Flow.start registry line) f →
    ReflTransGen Flow.Step f ⟨registry, [], again, [d]⟩
  /-- There are at most as many requests for help as the longest path has segments beyond those that
  the line spells, and one more. -/
  bounded : ∀ p m, line.Spells p → (∀ r ∈ registry.catalog.entries, r.path.length ≤ m) →
    again.length ≤ m + 1 - p.length
  /-- The requests for help are the line with more and more words in front. -/
  texts : ∀ k, ∀ hk : k < again.length,
    again[k].text = (List.replicate (k + 1) helpWord).flatten ++ line.text
  /-- Each of them is cut into as many tokens as there are words in front, and those of the line. -/
  tokens : ∀ k, ∀ hk : k < again.length, ∃ tokens, Token.tokenize line.text = .ok tokens ∧
    Token.tokenize again[k].text = .ok (List.replicate (k + 1) helpToken ++ tokens)
  /-- A line that cannot be cut into tokens is reported as such and never sent back; of any other
  the executor gets a command, or a report that it is unrecognized or of its options. -/
  outcome : (∃ e, Token.tokenize line.text = .error e ∧ again = [] ∧
      d = .inform (.lexical line e)) ∨
    (∃ tokens, Token.tokenize line.text = .ok tokens) ∧ d.Resolved

/-- With a registry that is ready, whatever is registered, the cycle of a line through the stages
ends in one way only: the one that following the line gives. -/
theorem cycle_ends {registry : Registry Unit} (hready : registry.isReady = true) (line : Line) :
    CycleEnds registry line (registry.catalog.follow registry.catalog.longest line).1
      (registry.catalog.settle line) := by
  obtain ⟨again, hagain⟩ := (Catalog.settles_settle registry.catalog line).retries
  have hfollow : (registry.catalog.follow registry.catalog.longest line).1 = again := by
    rw [hagain.follow_eq hagain.length_le_longest]
  have hleads : Flow.Leads (Flow.start registry line)
      ⟨registry, [], again, [registry.catalog.settle line]⟩ :=
    Flow.leads_of_retries hready hagain []
  rw [hfollow]
  exact
    { halts := hleads.halts Flow.not_step
      rests := fun f hf => hleads.reaches_of_reaches Flow.not_step hf
      bounded := fun p m hp hm => hagain.length_le hp hm
      texts := hagain.text_eq
      tokens := hagain.tokenize_eq
      outcome := hagain.outcome }

/-- A registry of four commands of one handler, two of them below `help`. -/
def echoRegistry : Registry Unit :=
  let register (path : CommandPath) : Registration := ⟨⟨"echo", 0⟩, path, none, none⟩
  ⟨Catalog.ofList [register ⟨["edit"], by decide, by decide⟩,
    register ⟨["echo"], by decide, by decide⟩, register ⟨["help", "edit"], by decide, by decide⟩,
    register ⟨["help", "echo"], by decide, by decide⟩], 0, true, []⟩

/-- The line `e` is sent back twice, and is unrecognized then. -/
theorem cycle_ends_echo :
    echoRegistry.isReady = true ∧
      (echoRegistry.catalog.follow echoRegistry.catalog.longest (Line.ofRaw "e")).1.map Line.text =
        [("help e" : Text), ("help help e" : Text)] ∧
      CycleEnds echoRegistry (Line.ofRaw "e")
        (echoRegistry.catalog.follow echoRegistry.catalog.longest (Line.ofRaw "e")).1
        (echoRegistry.catalog.settle (Line.ofRaw "e")) :=
  ⟨rfl, by decide +kernel, cycle_ends rfl _⟩

end ClusterConsole
