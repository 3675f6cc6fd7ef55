/-
Lines that name no command. Only blanks leave no token behind (`Token.blank_of_tokenize_nil`), so
a line that asks for something has a token if it can be cut into tokens at all, and so has every
request for help that comes of it (`Flow.concerns_of_reaches`). Hence a line is found unrecognized
without a question to the registry exactly if its tokens are `Nameless`: an option comes first, or
an empty token comes before the options (`tokens_never_empty`).
-/
import ClusterConsole.Proofs.Token.Grammar
import ClusterConsole.Proofs.Resolution.Delivery

namespace ClusterConsole

open Relation (ReflTransGen)

/-! ## Lines without tokens -/

/-- A line that is cut into no tokens has nothing but blanks. -/
theorem Token.blank_of_tokenize_nil {t : Text} (h : tokenize t = .ok []) :
    ∀ c ∈ t, Text.isBlank c = true := by
  obtain ⟨s, hs, hbare⟩ := map_eq_ok.1 h
  obtain ⟨pieces, hpieces, htokens⟩ := (reads_of_scan hs).derives
  rw [hbare, tokensOf, List.filterMap_eq_nil_iff] at htokens
  intro c hc
  rw [← hpieces.text, List.mem_flatMap] at hc
  obtain ⟨p, hp, hc⟩ := hc
  -- every run means a token, so the character is in a piece that is a blank
  cases p with
  | blank b =>
    obtain rfl := List.mem_singleton.1 hc
    exact hpieces.valid _ hp
  | bare items => cases htokens _ hp
  | quoted q items => cases htokens _ hp

namespace Line

variable {line : Line} {tokens : List Text}

theorem text_ne_nil_of_asks (h : line.asks = true) : line.text ≠ [] := by
  intro hnil
  simp [asks, isEmpty, hnil] at h

theorem tokens_ne_nil (hne : line.text ≠ []) (ht : Token.tokenize line.text = .ok tokens) :
    tokens ≠ [] := by
  rintro rfl
  obtain ⟨c, cs, htext⟩ := List.exists_cons_of_ne_nil hne
  have hblank := Token.blank_of_tokenize_nil ht c (by simp [htext])
  have hfirst := (Text.trim_eq_self_iff.1 line.trimmed).1 c (by simp [htext])
  rw [hblank] at hfirst
  cases hfirst

theorem line_of_tokenize {t : TokenizedLine} (h : line.tokenize = .ok t) : t.line = line := by
  obtain ⟨tokens, -, rfl⟩ := map_eq_ok.1 h
  rfl

/-- The line as it is after it has been sent back `k` times. -/
def sentBack (line : Line) (k : Nat) : Line := Nat.iterate helpRequest k line

theorem sentBack_succ (line : Line) (k : Nat) :
    line.sentBack (k + 1) = (line.sentBack k).helpRequest :=
  Function.iterate_succ_apply' helpRequest k line

theorem text_sentBack_ne_nil (hne : line.text ≠ []) (k : Nat) : (line.sentBack k).text ≠ [] := by
  induction k with
  | zero => exact hne
  | succ k ih =>
    rw [sentBack_succ, helpRequest_text_of_ne_nil ih]
    simp [helpWord]

/-- Each time a line is sent back it gets one more token. -/
theorem tokenize_sentBack (hne : line.text ≠ []) (ht : Token.tokenize line.text = .ok tokens)
    (k : Nat) :
    Token.tokenize (line.sentBack k).text = .ok (List.replicate k helpToken ++ tokens) := by
  induction k with
  | zero => exact ht
  | succ k ih =>
    rw [sentBack_succ, tokenize_helpRequest_of_ne_nil (text_sentBack_ne_nil hne k) ih]
    rfl

end Line

/-! ## Tokens that spell no path -/

namespace CommandPath

variable {segments tokens : List Text}

theorem ofSegments_eq_error_iff :
    (∃ e, ofSegments segments = .error e) ↔ segments = [] ∨ [] ∈ segments := by
  constructor
  · rintro ⟨e, he⟩
    by_contra hno
    rw [not_or] at hno
    have hok := ofSegments_segments ⟨segments, hno.1, fun s hs hnil => hno.2 (hnil ▸ hs)⟩
    rw [hok] at he
    cases he
  · intro h
    cases hp : ofSegments segments with
    | error e => exact ⟨e, rfl⟩
    | ok p =>
      rw [← segments_of_ofSegments hp] at h
      exact absurd h (not_or.2 ⟨p.ne_nil, fun hs => p.filled _ hs rfl⟩)

/-- The tokens name no command: the first one begins options, or there is an empty one before the
first one that does. -/
def Nameless (tokens : List Text) : Prop :=
  (∃ t rest, tokens = t :: rest ∧ t.head? = some '-') ∨
    ∃ before after, tokens = before ++ [] :: after ∧ ∀ t ∈ before, t.head? ≠ some '-'

theorem beginsOptions_iff {t : Text} : beginsOptions t = true ↔ t.head? = some '-' := beq_iff_eq

theorem leading_eq_nil_iff (hne : tokens ≠ []) :
    leading tokens = [] ↔ ∃ t rest, tokens = t :: rest ∧ t.head? = some '-' := by
  obtain ⟨t, rest, rfl⟩ := List.exists_cons_of_ne_nil hne
  rw [leading, List.takeWhile_cons]
  by_cases ht : beginsOptions t = true
  · simp [ht, beginsOptions_iff.1 ht]
  · have hhead := mt beginsOptions_iff.2 ht
    simp [ht, hhead]

theorem nil_mem_leading_iff :
    [] ∈ leading tokens ↔
      ∃ before after, tokens = before ++ [] :: after ∧ ∀ t ∈ before, t.head? ≠ some '-' := by
  constructor
  · intro h
    obtain ⟨before, after, hleading⟩ := List.append_of_mem h
    have hsplit : leading tokens ++ tokens.dropWhile (!beginsOptions ·) = tokens :=
      List.takeWhile_append_dropWhile
    rw [hleading, List.append_assoc, List.cons_append] at hsplit
    refine ⟨before, _, hsplit.symm, fun t ht hhead => ?_⟩
    have hnot := List.mem_takeWhile_imp (show t ∈ leading tokens by simp [hleading, ht])
    rw [beginsOptions_iff.2 hhead] at hnot
    cases hnot
  · rintro ⟨before, after, rfl, hbefore⟩
    have hkept : ∀ t ∈ before, (!beginsOptions t) = true := by
      intro t ht
      rw [Bool.not_eq_true']
      exact Bool.eq_false_iff.2 (mt beginsOptions_iff.1 (hbefore t ht))
    rw [leading, List.takeWhile_append_of_pos hkept]
    exact List.mem_append_right _ List.mem_cons_self

theorem ofTokens_eq_error_iff (hne : tokens ≠ []) :
    (∃ e, ofTokens tokens = .error e) ↔ Nameless tokens := by
  rw [ofTokens, ofSegments_eq_error_iff, leading_eq_nil_iff hne, nil_mem_leading_iff]
  rfl

end CommandPath

/-! ## Requests for help -/

/-- The line has come of another by being sent back, and the tokens are its tokens. -/
def TokenizedLine.ComesOf (t : TokenizedLine) (line : Line) : Prop :=
  t.Genuine ∧ ∃ k, t.line = line.sentBack k

/-- The message is about a line that has come of the given one. -/
def StageMessage.Concerns (line : Line) : StageMessage → Prop
  | .line l => ∃ k, l = line.sentBack k
  | .tokenized t => t.ComesOf line
  | .lookup l => ∀ t ∈ l.origin, t.ComesOf line
  | .matched r => ∀ t ∈ r.origin, t.ComesOf line
  | .dispatch _ => True

/-- A line is sent back only in answer to the question that has been asked for it. -/
theorem Response.resolve_resubmit {r : Response} {next : Line}
    (h : r.resolve = some (.resubmit next)) :
    ∃ t, r.origin = some t ∧ next = t.line.helpRequest := by
  obtain ⟨t, ht, h⟩ := Option.map_eq_some_iff.1 h
  refine ⟨t, ht, ?_⟩
  split at h
  all_goals cases h
  rfl

namespace Flow

variable {registry : Registry Unit} {line : Line} {tokens : List Text} {f f' : Flow}

/-- All messages are about the line, and each line that has been sent back has come of it and has a
token. -/
structure Concerns (line : Line) (f : Flow) : Prop where
  waiting : ∀ m ∈ f.waiting, m.Concerns line
  again : ∀ l ∈ f.again, (∃ k, l = line.sentBack (k + 1)) ∧
    ∃ tokens, Token.tokenize l.text = .ok tokens ∧ tokens ≠ []

theorem Concerns.send (h : f.Concerns line) {ms : List StageMessage}
    (hms : ∀ m ∈ ms, m.Concerns line) : (f.send ms).Concerns line :=
  ⟨List.forall_mem_append.2 ⟨h.waiting, hms⟩, h.again⟩

theorem Concerns.take (hne : line.text ≠ []) (h : f.Concerns line) {m : StageMessage}
    (hm : m.Concerns line) : (f.take m).Concerns line := by
  cases m with
  | line l =>
    simp only [Flow.take]
    cases ht : l.tokenize with
    | error e => exact h.send (List.forall_mem_singleton.2 trivial)
    | ok t =>
      obtain ⟨k, rfl⟩ := hm
      exact h.send (List.forall_mem_singleton.2
        ⟨Line.genuine_of_tokenize ht, k, Line.line_of_tokenize ht⟩)
  | tokenized t =>
    simp only [Flow.take]
    cases hl : t.lookup with
    | error event => exact h.send (List.forall_mem_singleton.2 trivial)
    | ok l =>
      obtain ⟨horigin, -⟩ := Lookup.ofLine_ok (mapError_eq_ok.1 hl)
      refine h.send (List.forall_mem_singleton.2 fun t' ht' => ?_)
      rw [horigin] at ht'
      cases ht'
      exact hm
  | lookup l =>
    simp only [Flow.take, Registry.handle]
    split_ifs
    · -- the answer carries the line that the question has been asked for
      exact ⟨List.forall_mem_append.2 ⟨h.waiting, List.forall_mem_singleton.2 hm⟩, h.again⟩
    · exact ⟨List.forall_mem_append.2 ⟨h.waiting, List.forall_mem_nil _⟩, h.again⟩
  | matched r =>
    simp only [Flow.take]
    split
    · exact h
    · exact h.send (List.forall_mem_singleton.2 trivial)
    · rename_i next hnext
      obtain ⟨t, ht, rfl⟩ := Response.resolve_resubmit hnext
      obtain ⟨hgenuine, k, hk⟩ := hm t ht
      have hline : t.line.helpRequest = line.sentBack (k + 1) := by rw [hk, Line.sentBack_succ]
      have htext : t.line.text ≠ [] := by
        rw [hk]
        exact Line.text_sentBack_ne_nil hne k
      refine ⟨List.forall_mem_append.2 ⟨h.waiting, List.forall_mem_singleton.2 ⟨_, hline⟩⟩,
        List.forall_mem_append.2 ⟨h.again, List.forall_mem_singleton.2 ⟨⟨k, hline⟩, ?_⟩⟩⟩
      exact ⟨_, Line.tokenize_helpRequest_of_ne_nil htext hgenuine, List.cons_ne_nil _ _⟩
  | dispatch d => exact ⟨h.waiting, h.again⟩

theorem Concerns.step (hne : line.text ≠ []) (h : f.Concerns line) (hstep : Step f f') :
    f'.Concerns line := by
  obtain @⟨before, after, m, hwaiting⟩ := hstep
  have hm : m.Concerns line := h.waiting m (by simp [hwaiting])
  have hrest : Concerns line { f with waiting := before ++ after } := by
    refine ⟨fun m' hm' => h.waiting m' ?_, h.again⟩
    rw [hwaiting]
    exact List.mem_append.2 ((List.mem_append.1 hm').imp_right (List.mem_cons_of_mem m))
  exact hrest.take hne hm

/-- Along a run, all messages are about the line that has come in. -/
theorem concerns_of_reaches (hne : line.text ≠ [])
    (h : ReflTransGen Step (start registry line) f) : f.Concerns line := by
  induction h with
  | refl => exact ⟨List.forall_mem_singleton.2 ⟨0, rfl⟩, List.forall_mem_nil _⟩
  | tail _ hstep ih => exact ih.step hne hstep

/-! ## Without a question to the registry -/

/-- In whatever order messages are taken, the line is found unrecognized in the end and nothing
else, and the registry is never asked. -/
def EndsUnasked (registry : Registry Unit) (line : Line) : Prop :=
  ∃ t, t.line = line ∧ ∀ f, ReflTransGen Step (start registry line) f →
    (∀ l, StageMessage.lookup l ∉ f.waiting) ∧
      ReflTransGen Step f ⟨registry, [], [], [.inform (.unrecognized t)]⟩

theorem take_line (registry : Registry Unit) {t : TokenizedLine} (ht : line.tokenize = .ok t) :
    take ⟨registry, [], [], []⟩ (.line line) = ⟨registry, [.tokenized t], [], []⟩ := by
  simp only [take, ht]
  rfl

theorem not_endsUnasked_of_lexical {e : Token.LexicalError} (h : line.tokenize = .error e) :
    ¬ EndsUnasked registry line := by
  rintro ⟨t, -, hends⟩
  have hleads : Leads (start registry line)
      ⟨registry, [], [], [.inform (.lexical line e)]⟩ := by
    refine Leads.single (f := ⟨registry, [.dispatch (.inform (.lexical line e))], [], []⟩) ?_
      (Leads.single rfl (.refl _))
    simp only [take, h]
    rfl
  -- the state of rest is another one
  rcases (hends _ hleads.reaches).2.cases_head with heq | ⟨f, hf, -⟩
  · cases heq
  · exact not_step f hf

theorem not_endsUnasked_of_lookup {t : TokenizedLine} {l : Lookup} (ht : line.tokenize = .ok t)
    (hl : t.lookup = .ok l) : ¬ EndsUnasked registry line := by
  rintro ⟨t', -, hends⟩
  have hleads : Leads (start registry line) ⟨registry, [.lookup l], [], []⟩ := by
    refine Leads.single (take_line registry ht) (Leads.single ?_ (.refl _))
    simp only [take, hl]
    rfl
  exact (hends _ hleads.reaches).1 l List.mem_cons_self

theorem endsUnasked_of_event {t : TokenizedLine} (ht : line.tokenize = .ok t)
    (hl : t.lookup = .error (.unrecognized t)) : EndsUnasked registry line := by
  have hevent : take ⟨registry, [], [], []⟩ (.tokenized t) =
      ⟨registry, [.dispatch (.inform (.unrecognized t))], [], []⟩ := by
    simp only [take, hl]
    rfl
  have hleads : Leads (start registry line) ⟨registry, [], [], [.inform (.unrecognized t)]⟩ :=
    .single (take_line registry ht) (.single hevent (.single rfl (.refl _)))
  refine ⟨t, Line.line_of_tokenize ht, fun f hf =>
    ⟨fun l => ?_, hleads.reaches_of_reaches not_step hf⟩⟩
  -- these four states are all there are
  have hpath : f = start registry line ∨ f = ⟨registry, [.tokenized t], [], []⟩ ∨
      f = ⟨registry, [.dispatch (.inform (.unrecognized t))], [], []⟩ ∨
      f = ⟨registry, [], [], [.inform (.unrecognized t)]⟩ := by
    induction hf with
    | refl => exact Or.inl rfl
    | tail _ hstep ih =>
      rcases ih with rfl | rfl | rfl | rfl
      · exact Or.inr (Or.inl ((step_single.1 hstep).trans (take_line registry ht)))
      · exact Or.inr (Or.inr (Or.inl ((step_single.1 hstep).trans hevent)))
      · exact Or.inr (Or.inr (Or.inr (step_single.1 hstep)))
      · exact absurd hstep (not_step _)
  rcases hpath with rfl | rfl | rfl | rfl <;> simp [start]

/-- The registry is not asked about a line exactly if its tokens spell no path. -/
theorem endsUnasked_iff : EndsUnasked registry line ↔
    ∃ tokens, Token.tokenize line.text = .ok tokens ∧
      ∃ e, CommandPath.ofTokens tokens = .error e := by
  cases htokens : Token.tokenize line.text with
  | error e =>
    have ht : line.tokenize = .error e := by rw [Line.tokenize, htokens]; rfl
    exact iff_of_false (not_endsUnasked_of_lexical ht) (by simp)
  | ok tokens =>
    have ht : line.tokenize = .ok ⟨line, tokens⟩ := by rw [Line.tokenize, htokens]; rfl
    cases hp : CommandPath.ofTokens tokens with
    | error e =>
      have hl : TokenizedLine.lookup ⟨line, tokens⟩ = .error (.unrecognized ⟨line, tokens⟩) := by
        rw [TokenizedLine.lookup, Lookup.ofLine, hp]
        rfl
      exact iff_of_true (endsUnasked_of_event ht hl) ⟨tokens, rfl, e, hp⟩
    | ok p =>
      have hl : TokenizedLine.lookup ⟨line, tokens⟩ =
          .ok ⟨[p], by simp, some ⟨line, tokens⟩⟩ := by
        rw [TokenizedLine.lookup, Lookup.ofLine, hp]
        rfl
      refine iff_of_false (not_endsUnasked_of_lookup ht hl) ?_
      rintro ⟨_, heq, e, he⟩
      cases heq
      rw [hp] at he
      cases he

end Flow

/-! ## Lines that ask for something -/

/-- The tokens of a line, also when it is sent back, and when they keep it from the registry. -/
structure NeverEmpty (line : Line) : Prop where
  /-- A line that can be cut into tokens has one. -/
  tokens : ∀ tokens, Token.tokenize line.text = .ok tokens → tokens ≠ []
  /-- However often it is sent back, it can be cut into tokens then, and has more of them. -/
  sentBack : ∀ tokens k, Token.tokenize line.text = .ok tokens →
    Token.tokenize (line.sentBack k).text = .ok (List.replicate k helpToken ++ tokens)
  /-- Whatever the registry holds and whichever message is taken first, a line that the stages send
  back is this one sent back some number of times, and it has a token. -/
  again : ∀ registry f, ReflTransGen Flow.Step (Flow.start registry line) f →
    ∀ l ∈ f.again, (∃ k, l = line.sentBack (k + 1)) ∧
      ∃ tokens, Token.tokenize l.text = .ok tokens ∧ tokens ≠ []
  /-- The line is found unrecognized without a question to the registry exactly if it can be cut
  into tokens and the first of these begins with `-`, or an empty one comes before all that do. -/
  unasked : ∀ registry, Flow.EndsUnasked registry line ↔
    ∃ tokens, Token.tokenize line.text = .ok tokens ∧
      ((∃ t rest, tokens = t :: rest ∧ t.head? = some '-') ∨
        ∃ before after, tokens = before ++ [] :: after ∧ ∀ t ∈ before, t.head? ≠ some '-')

/-- The tokens of a line that asks for something are never none, and only an option or an empty
token in the wrong place keeps it from being looked up. -/
theorem tokens_never_empty {raw : Text} (h : (Line.ofRaw raw).asks = true) :
    NeverEmpty (Line.ofRaw raw) := by
  have hne := Line.text_ne_nil_of_asks h
  refine ⟨fun tokens => Line.tokens_ne_nil hne, fun tokens k ht => Line.tokenize_sentBack hne ht k,
    fun registry f hf => (Flow.concerns_of_reaches hne hf).again, fun registry => ?_⟩
  rw [Flow.endsUnasked_iff]
  refine exists_congr fun tokens => and_congr_right fun ht => ?_
  exact CommandPath.ofTokens_eq_error_iff (Line.tokens_ne_nil hne ht)

theorem tokens_never_empty_quoted :
    (Line.ofRaw " cluster '' -x ".toList).asks = true ∧
      Token.tokenize (Line.ofRaw " cluster '' -x ".toList).text =
        .ok ["cluster".toList, [], "-x".toList] ∧
      Token.tokenize ((Line.ofRaw " cluster '' -x ".toList).sentBack 2).text =
        .ok (List.replicate 2 helpToken ++ ["cluster".toList, [], "-x".toList]) ∧
      Flow.EndsUnasked echoRegistry (Line.ofRaw " cluster '' -x ".toList) := by
  have h : NeverEmpty (Line.ofRaw " cluster '' -x ".toList) :=
    tokens_never_empty (by decide +kernel)
  have ht : Token.tokenize (Line.ofRaw " cluster '' -x ".toList).text =
      .ok ["cluster".toList, [], "-x".toList] := by decide +kernel
  refine ⟨by decide +kernel, ht, h.sentBack _ 2 ht, (h.unasked _).2 ⟨_, ht, Or.inr ?_⟩⟩
  exact ⟨["cluster".toList], ["-x".toList], rfl, by decide⟩

end ClusterConsole
