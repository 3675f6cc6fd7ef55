/-
The help text shows the registry, completely and in order (`help_shows`). It is made in three
stages: the registrations that handlers make are folded into the catalog of the registry, the
registry answers the handler of `help` with that catalog, and the handler writes a line for each
command and each of its options. What is shown is therefore read off the list of all registrations
that were ever made: the last one for each path, with its own options and description.
-/
import ClusterConsole.Proofs.Registry.Batches

namespace ClusterConsole

/-! ## What a help text is to show -/

/-- The options that a command declares, in the order of the set. -/
def Registration.optionList (r : Registration) : List CliOption :=
  (r.options.map OptionSet.options).getD []

theorem Registration.optionList_ascends (r : Registration) :
    r.optionList.Pairwise fun o o' => compare o.short o'.short = .lt := by
  unfold optionList
  cases r.options with
  | none => exact List.Pairwise.nil
  | some options => exact options.ascending

namespace Help

/-- A response that shows the registrations `shown`, which are those that count of `made`, the
registrations that were made one after another. -/
structure Shows (made shown : List Registration) (events : List Event) : Prop where
  /-- The paths ascend strictly, so no command is repeated. -/
  ascends : shown.Pairwise fun r r' => compare r.path r'.path = .lt
  /-- A registration is shown if no later one is for its path, and only then. -/
  latest : ∀ r, r ∈ shown ↔ ∃ earlier later,
    made = earlier ++ r :: later ∧ ∀ r' ∈ later, r'.path ≠ r.path
  /-- No command is missing. -/
  complete : ∀ r ∈ made, ∃ r' ∈ shown, r'.path = r.path
  /-- After the first line, each command is one line, with a line for each of its options after it;
  then the response is over. -/
  events : events = .line "Available commands:" :: (shown.flatMap fun r =>
    .line (commandLine r) :: r.optionList.map fun o => .line (optionLine o)) ++ [.done]
  /-- The options of a command come in strictly ascending order of their short names. -/
  options : ∀ r ∈ shown, r.optionList.Pairwise fun o o' => compare o.short o'.short = .lt
  /-- The line about a command has its path, and its description if there is one. -/
  described : ∀ r ∈ shown, commandLine r = "  " ++ match r.description with
    | some d => r.path.text.padRight pathWidth ++ " " ++ d
    | none => r.path.text
  /-- The line about an option ends with a mark if the option is required, and only then. -/
  marked : ∀ r ∈ shown, ∀ o ∈ r.optionList, optionLine o = "      " ++
    o.usage.padRight usageWidth ++ " " ++ o.description ++
      if o.required then (" (required)" : Text) else []

theorem commandLine_eq (r : Registration) : commandLine r = "  " ++ match r.description with
    | some d => r.path.text.padRight pathWidth ++ " " ++ d
    | none => r.path.text := by
  rw [commandLine]
  cases r.description with
  | some d => simp only [List.append_assoc]
  | none => rfl

theorem optionLine_eq (o : CliOption) : optionLine o = "      " ++
    o.usage.padRight usageWidth ++ " " ++ o.description ++
      if o.required then (" (required)" : Text) else [] := rfl

/-- The help text for a catalog, command by command. -/
theorem events_eq (c : Catalog) :
    events c = .line "Available commands:" :: (c.entries.flatMap fun r =>
      .line (commandLine r) :: r.optionList.map fun o => .line (optionLine o)) ++ [.done] := by
  have hlines : (lines c).map Event.line = c.entries.flatMap fun r =>
      .line (commandLine r) :: r.optionList.map fun o => .line (optionLine o) := by
    rw [lines, List.map_flatMap]
    refine List.flatMap_congr fun r _ => ?_
    rw [registrationLines, List.map_cons, List.map_map]
    rfl
  rw [events, Event.listing, List.map_cons, hlines]

/-- The catalog of registrations that were made one after another is shown as it should be. -/
theorem shows_ofList (made : List Registration) :
    Shows made (Catalog.ofList made).entries (events (Catalog.ofList made)) where
  ascends := (Catalog.ofList made).ascends
  latest r := by
    simp only [Catalog.mem_ofList_iff, Ascending.IsLast, ne_eq, CommandPath.compare_eq_iff]
  complete r hr := by
    obtain ⟨r', hr', hpath⟩ := Ascending.exists_isLast Registration.path hr
    exact ⟨r', Catalog.mem_ofList_iff.2 hr', CommandPath.compare_eq_iff.1 hpath⟩
  events := events_eq _
  options r _ := r.optionList_ascends
  described r _ := commandLine_eq r
  marked _ _ o _ := optionLine_eq o

end Help

/-! ## The command -/

namespace Console

variable {s : Console} {line : Line} {c : Command}

/-- A command of the handler of `help` shows the catalog, and leaves the console as it is. -/
theorem submit_help (hasks : line.asks = true) (hsettle : s.catalog.settle line = .execute c)
    (hhelp : s.handlers[c.registration.handler.place]? = some .help) :
    s.submit line = (s, ⟨Help.events s.catalog, []⟩) := by
  have hset : s.handlers.set c.registration.handler.place .help = s.handlers := by
    obtain ⟨hlt, heq⟩ := List.getElem?_eq_some_iff.1 hhelp
    rw [← heq, List.set_getElem_self]
  have hwith : s.withHandler c.registration.handler.place .help = s := by
    rw [withHandler, hset]
  rw [submit, if_pos hasks, hsettle, dispatch, execute_ok hhelp rfl, hwith]
  show (_, _) = _
  simp only [Handler.reported, hset]

/-- The registry of a console has been brought what each of the handlers registers, one handler
after the other, and awaits none of them any more. -/
theorem brings_ofHandlers (await : Bool) (handlers : List Handler) (service : RecordService) :
    ∃ ops : List (Operation Unit),
      Brings ops (handlers.zipIdx.map fun h => (h.1.registrations h.2).getD []) ∧
      awaited ops = 0 ∧
      (ofHandlers await handlers service).catalog = (Registry.after await ops).catalog := by
  let conducts := handlers.zipIdx.map fun h => h.1.conduct h.2
  have hresponses : conducts.filterMap Conduct.response? =
      handlers.zipIdx.map fun h => Response.ofList ((h.1.registrations h.2).getD []) := by
    rw [List.filterMap_map, ← List.filterMap_eq_map]
    refine List.filterMap_congr fun h _ => ?_
    simp only [Function.comp_apply, Handler.conduct]
    -- a handler that cannot state its registrations answers with none
    cases h.1.registrations h.2 <;> rfl
  refine ⟨arrivals conducts.length ((conducts.filterMap Conduct.response?).map .registered),
    ?_, ?_, congrArg Registry.catalog (Registry.started_eq_after await conducts)⟩
  · simp only [Brings, arrivals, List.filterMap_cons, Operation.response?, List.map_map,
      List.filterMap_map, hresponses]
    exact congrFun List.filterMap_eq_map _
  · -- there are as many responses as handlers, however many of these were counted
    have hle : (UInt64.ofNat conducts.length).toNat ≤ conducts.length := by
      rw [UInt64.toNat_ofNat']
      exact Nat.mod_le _ _
    have hlength : (conducts.filterMap Conduct.response?).length = conducts.length := by
      simp [hresponses, conducts]
    have hcount : (awaited (arrivals (ρ := Unit) conducts.length
        ((conducts.filterMap Conduct.response?).map .registered))).toNat = 0 := by
      rw [awaited_arrivals, responses_registered, hlength]
      omega
    exact UInt64.toNat_inj.1 hcount

/-- The help text shows the registry: whichever registrations have been folded into it, in whatever
batches, once no handler is awaited any more. The query that the command makes is answered at once,
and the handler makes the response of the answer. -/
theorem help_shows {ρ : Type} {b : Bool} {ops : List (Operation ρ)}
    {batches : List (List Registration)} (hbrings : Brings ops batches)
    (hcomplete : awaited ops = 0) (hcatalog : s.catalog = (Registry.after b ops).catalog)
    (hasks : line.asks = true) (hsettle : s.catalog.settle line = .execute c)
    (hhelp : s.handlers[c.registration.handler.place]? = some .help) :
    ∃ shown, Help.Shows batches.flatten shown (s.submit line).2.events ∧
      ∀ a, ∃ reply, Registry.answersTo b ops (.query .list a) = [(a, reply)] ∧
        Handler.help.hear (.registry reply) = (.help, .ok (s.submit line).2.events) := by
  have hlist : (Registry.after b ops).catalog = Catalog.ofList batches.flatten :=
    Registry.catalog_of_brings hbrings
  have hready : ready b ops = true := by
    rw [ready, hcomplete]
    simp
  rw [submit_help hasks hsettle hhelp, hcatalog]
  refine ⟨(Catalog.ofList batches.flatten).entries, ?_, fun a => ?_⟩
  · rw [hlist]
    exact Help.shows_ofList batches.flatten
  · have hfollows := Registry.follows_after b ops
    refine ⟨⟨(Registry.after b ops).catalog, none⟩, ?_, rfl⟩
    rw [Registry.answersTo, Registry.perform_query hfollows, if_pos hready, hfollows.catalog]
    rfl

/-- An option without a long name that has to be given. -/
def modeOption : CliOption :=
  ⟨'m', none, some "MODE", 1, true, false, "How to list them", by decide, by decide,
    CliOption.one_arg_ok false⟩

/-- A scripted handler that registers a command of another one again, with a required option, and
one that has no description. -/
def replacing : Script :=
  ⟨"mine", some [⟨Handler.clusterListPath, some ⟨[modeOption], by simp, by decide, by simp⟩,
    some "My own list", .done⟩, ⟨⟨["dump"], by decide, by decide⟩, none, none, .done⟩]⟩

/-- A command that was registered twice is shown as the later registration has it. -/
theorem help_shows_replacing :
    let s := ofHandlers true [.help, .cluster [], .scripted replacing] .closed
    let line := Line.ofRaw "help"
    (s.submit line).2.events = Event.listing ["Available commands:",
      "  cluster list     My own list", "      -m <MODE>                How to list them (required)",
      "  dump", "  help             List available commands"] ∧
    ∃ shown, Help.Shows ([.help, .cluster [], .scripted replacing].zipIdx.map fun h : Handler × Nat =>
      (h.1.registrations h.2).getD []).flatten shown (s.submit line).2.events := by
  intro s line
  obtain ⟨ops, hbrings, hcomplete, hcatalog⟩ :=
    brings_ofHandlers true [.help, .cluster [], .scripted replacing] .closed
  have hsettle : s.catalog.settle line = .execute ⟨Handler.helpPath,
      ⟨⟨"help", 0⟩, Handler.helpPath, none, some "List available commands"⟩, ⟨line, ["help"]⟩⟩ :=
    Catalog.settle_of_select (o := ⟨[], []⟩) (by decide +kernel) rfl rfl rfl
  obtain ⟨shown, hshown, -⟩ := help_shows hbrings hcomplete hcatalog (by decide) hsettle rfl
  exact ⟨by decide +kernel, shown, hshown⟩

end Console

end ClusterConsole
