/-
Which commands can be called by their full names (`reachable_by_full_name`): those whose paths
select no other registered path. There is no exception for exact matches, so a command with a path
that is the beginning of another one is shadowed by it, and its full name is sent back as a request
for help.

The full name is written with each segment in quotes (`CommandPath.fullName`), which carries any
characters through trimming, comments and tokens; only a segment that begins with `-` would be taken
for an option.
-/
import ClusterConsole.Proofs.Registry.Arrivals
import ClusterConsole.Proofs.Resolution.Cycle
import ClusterConsole.Proofs.Token.Spelling

namespace ClusterConsole

open Relation (ReflTransGen)

/-! ## Full names -/

namespace CommandPath

variable {p : CommandPath}

/-- The full name of a command as it is written on the command line: its segments in quotes. -/
def fullName (p : CommandPath) : Text := Text.join " " (p.segments.map Token.quote)

theorem text_fullName (p : CommandPath) : (Line.ofRaw p.fullName).text = p.fullName :=
  Line.text_quoted p.ne_nil

theorem tokenize_fullName (p : CommandPath) :
    Token.tokenize (Line.ofRaw p.fullName).text = .ok p.segments :=
  Line.tokenize_quoted p.ne_nil

theorem ofTokens_segments (h : ∀ s ∈ p.segments, beginsOptions s = false) :
    ofTokens p.segments = .ok p := by
  rw [ofTokens, leading_eq_self h, ofSegments_segments]

theorem spells_fullName (h : ∀ s ∈ p.segments, beginsOptions s = false) :
    (Line.ofRaw p.fullName).Spells p :=
  ⟨p.segments, tokenize_fullName p, ofTokens_segments h⟩

end CommandPath

/-! ## Options -/

namespace Registration

/-- The short names of the options that have to be given. -/
def required (r : Registration) : List Char :=
  (((r.options.map OptionSet.options).getD []).filter CliOption.required).map CliOption.short

theorem required_ascends (r : Registration) :
    r.required.Pairwise fun a b => compare a b = .lt := by
  unfold required
  rw [List.pairwise_map]
  refine List.Pairwise.filter _ ?_
  cases r.options with
  | none => exact .nil
  | some set => exact set.ascending

/-- The command that the full name of a registration gives. -/
def call (r : Registration) : Command :=
  ⟨r.path, r, ⟨Line.ofRaw r.path.fullName, r.path.segments⟩⟩

theorem optionTokens_call (r : Registration) : r.call.optionTokens = [] := List.drop_length

/-- What becomes of a call: it is run, or the options that it lacks are reported. -/
def called (r : Registration) : Dispatch :=
  match r.required with
  | [] => .execute r.call
  | shorts =>
    let message := (OptionError.missingRequired shorts).message
    .inform (.invalid (Line.ofRaw r.path.fullName) message none)

/-- Without tokens no option is given, and all required ones are missing. -/
theorem parseOptions_call (r : Registration) :
    r.call.parseOptions = match r.required with
      | [] => .ok ⟨[], []⟩
      | shorts => .error (.missingRequired shorts) := by
  have hgather : ∀ o : CliOption, Options.gather o [] = none := fun _ => rfl
  have hcollect : ∀ options, Options.collect options [] = ⟨[], []⟩ := by
    intro options
    simp [Options.collect, Options.positionals, hgather]
  have hmissing : Options.missing ((r.options.map OptionSet.options).getD []) ⟨[], []⟩ =
      r.required := by
    simp [Options.missing, required, ParsedOptions.has, ParsedOptions.lookup, Ascending.find?]
  have huses : ∀ options, Options.uses options [] = .ok [] := fun _ => rfl
  rw [Command.parseOptions, optionTokens_call, Options.parse]
  show Options.parseWith ((r.options.map OptionSet.options).getD []) [] = _
  simp only [Options.parseWith, huses, hcollect, hmissing, bind, Except.bind]
  cases r.required <;> rfl

end Registration

/-! ## Looking a full name up -/

namespace Catalog

variable {c : Catalog}

/-- An entry that its path selects alone is all that the path selects. -/
theorem select_eq_singleton {r : Registration} (hr : r ∈ c.entries)
    (halone : ∀ e ∈ c.entries, e.path.selectedBy r.path = true → e.path = r.path) :
    (c.select [r.path]).entries = [r] := by
  refine Ascending.Ascends.ext (c.select [r.path]).ascends (List.pairwise_singleton _ r) fun e => ?_
  simp only [select, List.any_cons, List.any_nil, Bool.or_false, List.mem_filter,
    List.mem_singleton]
  constructor
  · rintro ⟨he, hsel⟩
    exact Ascending.eq_of_compare_eq c.ascends he hr
      (CommandPath.compare_eq_iff.2 (halone e he hsel))
  · rintro rfl
    exact ⟨hr, CommandPath.abbreviates_refl _⟩

/-- With another entry that the path of an entry selects there are several matches. -/
theorem exists_select_of_shadowed {r e : Registration} (hr : r ∈ c.entries) (he : e ∈ c.entries)
    (hsel : e.path.selectedBy r.path = true) (hne : e.path ≠ r.path) :
    ∃ a b rest, (c.select [r.path]).entries = a :: b :: rest := by
  have hmem : ∀ x ∈ c.entries, x.path.selectedBy r.path = true → x ∈ (c.select [r.path]).entries :=
    fun x hx hxsel => List.mem_filter.2 ⟨hx, by simpa using hxsel⟩
  have hre := hmem r hr (CommandPath.abbreviates_refl _)
  have hee := hmem e he hsel
  rcases hentries : (c.select [r.path]).entries with _ | ⟨a, _ | ⟨b, rest⟩⟩
  · rw [hentries] at hre
    cases hre
  · rw [hentries, List.mem_singleton] at hre hee
    exact absurd (congrArg Registration.path (hee.trans hre.symm)) hne
  · exact ⟨a, b, rest, rfl⟩

end Catalog

theorem Registration.bind_call (r : Registration)
    (h : ∀ s ∈ r.path.segments, CommandPath.beginsOptions s = false) :
    Dispatch.bind r ⟨Line.ofRaw r.path.fullName, r.path.segments⟩ = r.called := by
  have hcommand : Command.ofLine r ⟨Line.ofRaw r.path.fullName, r.path.segments⟩ = .ok r.call := by
    rw [Command.ofLine, CommandPath.ofTokens_segments h]
    rfl
  unfold Dispatch.bind called
  simp only [hcommand, parseOptions_call]
  cases r.required <;> rfl

/-! ## What becomes of full names -/

/-- No other path of the registry is selected by the path of the registration. -/
def Registry.Alone {ρ : Type} (registry : Registry ρ) (r : Registration) : Prop :=
  ∀ e ∈ registry.catalog.entries, e.path.selectedBy r.path = true → e.path = r.path

/-- What the stages and the console make of the full name of a registered command. -/
structure AnswersFullName (registry : Registry Unit) (r : Registration) (line : Line) : Prop where
  /-- The line is not taken for a comment, and trimming leaves it as it is. -/
  asks : line.asks = true
  text : line.text = r.path.fullName
  /-- The call has no option tokens, and the options that have to be given come in order. -/
  optionTokens : r.call.optionTokens = []
  ordered : r.required.Pairwise fun a b => compare a b = .lt
  /-- The executor gets the call and nothing else, and the line is never sent back. -/
  called : registry.Alone r →
    Flow.Leads (Flow.start registry line) ⟨registry, [], [], [r.called]⟩
  submitted : registry.Alone r → ∀ s : Console, s.catalog = registry.catalog →
    s.submit line = s.dispatch r.called
  /-- The line is sent back with `help` in front; whatever comes of that, it is no command of the
  registration. -/
  shadowed : ¬ registry.Alone r → line.helpRequest.text = helpWord ++ r.path.fullName ∧
    ∃ again d, Flow.Leads (Flow.start registry line)
        ⟨registry, [], line.helpRequest :: again, [d]⟩ ∧
      ∀ c, d = .execute c → c.registration.path ≠ r.path
  /-- The call reaches the executor directly exactly when no other path is selected. -/
  reachable : ReflTransGen Flow.Step (Flow.start registry line) ⟨registry, [], [], [r.called]⟩ ↔
    registry.Alone r

section Lines

variable {registry : Registry Unit} {r : Registration}

theorem attempt_fullName_of_alone (hr : r ∈ registry.catalog.entries)
    (hname : ∀ s ∈ r.path.segments, CommandPath.beginsOptions s = false)
    (halone : registry.Alone r) :
    registry.catalog.attempt (Line.ofRaw r.path.fullName) = .dispatch r.called := by
  rw [Catalog.attempt_of_spells (CommandPath.tokenize_fullName _)
    (CommandPath.ofTokens_segments hname), Catalog.select_eq_singleton hr halone]
  exact congrArg _ (r.bind_call hname)

theorem attempt_fullName_of_shadowed (hr : r ∈ registry.catalog.entries)
    (hname : ∀ s ∈ r.path.segments, CommandPath.beginsOptions s = false)
    (hshadowed : ¬ registry.Alone r) :
    registry.catalog.attempt (Line.ofRaw r.path.fullName) =
      .resubmit (Line.ofRaw r.path.fullName).helpRequest := by
  unfold Registry.Alone at hshadowed
  push Not at hshadowed
  obtain ⟨e, he, hsel, hne⟩ := hshadowed
  obtain ⟨a, b, rest, hselect⟩ := Catalog.exists_select_of_shadowed hr he hsel hne
  rw [Catalog.attempt_of_spells (CommandPath.tokenize_fullName _)
    (CommandPath.ofTokens_segments hname), hselect]

/-- A shadowed command is never run by its full name: a registration that a line is dispatched to is
all that its own path selects. -/
theorem path_ne_of_settle {line : Line} {command : Command}
    (hshadowed : ¬ registry.Alone r) (h : registry.catalog.settle line = .execute command) :
    command.registration.path ≠ r.path := by
  intro hpath
  have honly := Catalog.select_of_settle h
  refine hshadowed fun e he hsel => ?_
  have hmem : e ∈ (registry.catalog.select [command.registration.path]).entries :=
    List.mem_filter.2 ⟨he, by simpa [hpath] using hsel⟩
  rw [honly, List.mem_singleton] at hmem
  rw [hmem, hpath]

end Lines

/-- In a registry that is ready, whatever is registered, the full name of a registered command calls
it if its path selects no other registered path: the command is run without option tokens if it
requires no options, and otherwise all required ones are reported. If another path is selected, the
line is sent back as a request for help and the command is not run. -/
theorem reachable_by_full_name {registry : Registry Unit} (hready : registry.isReady = true)
    {r : Registration} (hr : r ∈ registry.catalog.entries)
    (hname : ∀ s ∈ r.path.segments, CommandPath.beginsOptions s = false) :
    AnswersFullName registry r (Line.ofRaw r.path.fullName) := by
  have hasks : (Line.ofRaw r.path.fullName).asks = true := Line.asks_quoted r.path.ne_nil
  have hcalled : registry.Alone r → Flow.Leads (Flow.start registry (Line.ofRaw r.path.fullName))
      ⟨registry, [], [], [r.called]⟩ := fun halone =>
    Flow.leads_of_retries hready (.done (attempt_fullName_of_alone hr hname halone)) []
  have hshadowed : ¬ registry.Alone r → ∃ again d,
      Flow.Leads (Flow.start registry (Line.ofRaw r.path.fullName))
        ⟨registry, [], (Line.ofRaw r.path.fullName).helpRequest :: again, [d]⟩ ∧
      ∀ c, d = .execute c → c.registration.path ≠ r.path := by
    intro h
    have hattempt := attempt_fullName_of_shadowed hr hname h
    have hsettles := Catalog.settles_settle registry.catalog
      (Line.ofRaw r.path.fullName).helpRequest
    obtain ⟨again, hagain⟩ := hsettles.retries
    exact ⟨again, _, Flow.leads_of_retries hready (.again hattempt hagain) [],
      fun c => path_ne_of_settle h⟩
  refine
    { asks := hasks
      text := CommandPath.text_fullName _
      optionTokens := r.optionTokens_call
      ordered := r.required_ascends
      called := hcalled
      submitted := fun halone s hs => ?_
      shadowed := fun h => ⟨?_, hshadowed h⟩
      reachable := ⟨fun hreaches => ?_, fun halone => (hcalled halone).reaches⟩ }
  · have hsettle : s.catalog.settle (Line.ofRaw r.path.fullName) = r.called := by
      rw [hs]
      exact Catalog.settles_iff.1 (.now (attempt_fullName_of_alone hr hname halone))
    rw [Console.submit, if_pos hasks, hsettle]
  · rw [Line.helpRequest_text (CommandPath.spells_fullName hname), CommandPath.text_fullName]
  · by_contra h
    obtain ⟨again, d, hleads, -⟩ := hshadowed h
    -- the stages rest in both states, so both would have to be the same
    rcases (hleads.reaches_of_reaches Flow.not_step hreaches).cases_head with heq | ⟨f, hf, -⟩
    · exact absurd (congrArg Flow.again heq) (by simp)
    · exact Flow.not_step f hf

/-- A command whose segments hold quotes, a backslash and a `#`, and which requires two of its three
options. -/
def quotedRegistration : Registration :=
  let option (short : Char) (required : Bool) (h : isShortName short = true) : CliOption :=
    ⟨short, none, none, 1, required, false, [], h, rfl, CliOption.one_arg_ok false⟩
  ⟨⟨"echo", 0⟩, ⟨["# it's", "\\ \"all\""], by decide, by decide⟩,
    some ⟨[option 'x' true (by decide), option 'y' false (by decide), option 'z' true (by decide)],
      by decide, by decide, by decide⟩, none⟩

/-- A command whose path is the first segment of that one. -/
def shadowedRegistration : Registration :=
  ⟨⟨"echo", 0⟩, ⟨["# it's"], by decide, by decide⟩, none, none⟩

/-- A registry of these two. -/
def quotedRegistry : Registry Unit :=
  ⟨Catalog.ofList [quotedRegistration, shadowedRegistration], 0, true, []⟩

/-- The full name of the longer one is read as such, and the missing options are reported; that of
the shorter one is sent back. -/
theorem reachable_by_full_name_quoted :
    quotedRegistry.isReady = true ∧ quotedRegistration ∈ quotedRegistry.catalog.entries ∧
      (∀ s ∈ quotedRegistration.path.segments, CommandPath.beginsOptions s = false) ∧
      quotedRegistration.path.fullName = ("'# it\\'s' '\\\\ \"all\"'" : Text) ∧
      Flow.Leads (Flow.start quotedRegistry (Line.ofRaw quotedRegistration.path.fullName))
        ⟨quotedRegistry, [], [], [.inform (.invalid (Line.ofRaw quotedRegistration.path.fullName)
          "Missing required options: x, z" none)]⟩ ∧
      shadowedRegistration ∈ quotedRegistry.catalog.entries ∧
      ¬ ReflTransGen Flow.Step
        (Flow.start quotedRegistry (Line.ofRaw shadowedRegistration.path.fullName))
        ⟨quotedRegistry, [], [], [shadowedRegistration.called]⟩ := by
  have hlong : quotedRegistration ∈ quotedRegistry.catalog.entries := by decide +kernel
  have hshort : shadowedRegistration ∈ quotedRegistry.catalog.entries := by decide +kernel
  have hnames : ∀ s ∈ quotedRegistration.path.segments, CommandPath.beginsOptions s = false := by
    decide
  have halone : quotedRegistry.Alone quotedRegistration := by
    unfold Registry.Alone
    decide +kernel
  refine ⟨rfl, hlong, hnames, by decide +kernel,
    (reachable_by_full_name rfl hlong hnames).called halone, hshort, fun hreaches => ?_⟩
  have hshadowed := (reachable_by_full_name rfl hshort (by decide)).reachable.1 hreaches
    quotedRegistration hlong (by decide)
  exact absurd hshadowed (by decide)

end ClusterConsole
