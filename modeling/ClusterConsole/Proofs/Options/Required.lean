/-
Required options are asked for when everything else has been read, and only then
(`required_checked_last`). The comparison is with the set that has the same options and requires
none: whether an option is required has no part in the scan, which goes the same way for both sets
and ends in the same error or the same uses (`usesFrom_lenient`).
-/
import ClusterConsole.Proofs.Options.Rendering
import ClusterConsole.Proofs.Except

namespace ClusterConsole

open Options

/-! ## Options that need not be given -/

namespace CliOption

/-- The option, which need not be given. -/
def lenient (o : CliOption) : CliOption := { o with required := false }

@[simp] theorem lenient_short (o : CliOption) : o.lenient.short = o.short := rfl

@[simp] theorem lenient_long (o : CliOption) : o.lenient.long = o.long := rfl

@[simp] theorem lenient_args (o : CliOption) : o.lenient.args = o.args := rfl

end CliOption

/-- The set with the same options, none of which is required. -/
def OptionSet.lenient (s : OptionSet) : OptionSet where
  options := s.options.map CliOption.lenient
  ne_nil := by simpa using s.ne_nil
  ascending := List.pairwise_map.2 s.ascending
  longs := List.pairwise_map.2 s.longs

namespace Options

/-! ## The scan -/

section Scan

variable {options : List CliOption} {st : State}

/-- The use, of an option that need not be given. -/
def Use.lenient : Use → Use
  | .occurrence o values => .occurrence o.lenient values
  | .positional a => .positional a

/-- The option that waits, which need not be given. -/
def Waiting.lenient (w : Waiting) : Waiting := w.map fun e => (e.1.lenient, e.2)

/-- The state, with an option waiting that need not be given. -/
def State.lenient (st : State) : State := ⟨st.waiting.lenient, st.given⟩

/-- The outcome of reading a token, with options that need not be given. -/
def lenientStep (r : List Use × State) : List Use × State := (r.1.map Use.lenient, r.2.lenient)

theorem occurrence_lenient (o : CliOption) (values : List Text) :
    occurrence o.lenient values = (occurrence o values).map Use.lenient := by
  show (if o.accepts values.length = true then _ else _) = _
  unfold occurrence
  split_ifs <;> rfl

theorem close_lenient (w : Waiting) : w.lenient.close = w.close.map (List.map Use.lenient) := by
  cases w with
  | none => rfl
  | some e =>
    show (occurrence e.1.lenient e.2).map _ = ((occurrence e.1 e.2).map _).map _
    rw [occurrence_lenient]
    cases occurrence e.1 e.2 <;> rfl

theorem flagUse_lenient (given : List Char) (o : CliOption) :
    flagUse given o.lenient = (flagUse given o).map Use.lenient := by
  unfold flagUse
  rw [CliOption.lenient_short]
  split_ifs <;> rfl

/-- An option is found by its names, whether it is required or not. -/
theorem find?_lenient (options : List CliOption) {p : CliOption → Bool}
    (hp : ∀ o, p o.lenient = p o) :
    (options.map CliOption.lenient).find? p = (options.find? p).map CliOption.lenient := by
  have hcomp : p ∘ CliOption.lenient = p := funext hp
  rw [List.find?_map, hcomp]

theorem clusterUses_lenient (st : State) (flags : Text) :
    clusterUses (options.map CliOption.lenient) st.lenient flags =
      (clusterUses options st flags).map lenientStep := by
  induction flags generalizing st with
  | nil => rfl
  | cons c cs ih =>
    have hfind := find?_lenient options (p := (·.short == c)) fun _ => rfl
    have hclose : st.lenient.waiting.close = _ := close_lenient st.waiting
    have hgiven : st.lenient.given = st.given := rfl
    simp only [clusterUses, hfind]
    cases options.find? (·.short == c) with
    | none => rfl
    | some o =>
      simp only [Option.map_some, CliOption.lenient_args, hclose, hgiven, flagUse_lenient]
      split_ifs with hargs
      -- the cluster goes on behind an option without arguments, in a state where nothing waits
      · have hrest := ih ⟨none, c :: st.given⟩
        refine bind_map_eq fun closed => bind_map_eq fun use => ?_
        show clusterUses (options.map CliOption.lenient) (State.lenient ⟨none, c :: st.given⟩) cs >>=
          _ = _
        rw [hrest]
        exact bind_map_eq fun r => by simp [lenientStep, pure, Except.pure, Except.map]
      · refine bind_map_eq fun closed => ?_
        cases cs with
        | nil => rfl
        | cons c' cs =>
          simp only [occurrence_lenient]
          exact bind_map_eq fun use => by
            simp [lenientStep, pure, Except.pure, Except.map, State.lenient, Waiting.lenient]

theorem longUses_lenient (st : State) (name : Text) (value : Option Text) :
    longUses (options.map CliOption.lenient) st.lenient name value =
      (longUses options st name value).map lenientStep := by
  have hfind := find?_lenient options (p := (·.long == some name)) fun _ => rfl
  have hclose : st.lenient.waiting.close = _ := close_lenient st.waiting
  have hgiven : st.lenient.given = st.given := rfl
  simp only [longUses, hfind]
  cases options.find? (·.long == some name) with
  | none => rfl
  | some o =>
    simp only [Option.map_some, CliOption.lenient_args, CliOption.lenient_short, hclose, hgiven,
      flagUse_lenient, occurrence_lenient]
    cases o.args with
    | zero =>
      cases value with
      | some v => rfl
      | none =>
        exact bind_map_eq fun closed => bind_map_eq fun use => by
          simp [lenientStep, pure, Except.pure, Except.map, State.lenient, Waiting.lenient]
    | succ n =>
      cases value with
      | some v =>
        exact bind_map_eq fun closed => bind_map_eq fun use => by
          simp [lenientStep, pure, Except.pure, Except.map, State.lenient, Waiting.lenient]
      | none => exact bind_map_eq fun closed => rfl

theorem plainUses_lenient (st : State) (token : Text) :
    plainUses st.lenient token = lenientStep (plainUses st token) := by
  obtain ⟨waiting, given⟩ := st
  cases waiting with
  | none => rfl
  | some e =>
    show (if (e.2 ++ [token]).length < e.1.args then _ else _) =
      lenientStep (if (e.2 ++ [token]).length < e.1.args then _ else _)
    split_ifs <;> rfl

/-- The scan for the lenient options is the scan for the options. -/
theorem usesFrom_lenient (st : State) (tokens : List Text) :
    usesFrom (options.map CliOption.lenient) st.lenient tokens =
      (usesFrom options st tokens).map (List.map Use.lenient) := by
  induction tokens generalizing st with
  | nil => exact close_lenient st.waiting
  | cons token tokens ih =>
    -- a token that has been read leads to a state of the same kind for both sets
    have hrest : ∀ r : List Use × State,
        (usesFrom (options.map CliOption.lenient) (lenientStep r).2 tokens >>= fun us =>
            pure ((lenientStep r).1 ++ us)) =
          (usesFrom options r.2 tokens >>= fun us => pure (r.1 ++ us)).map
            (List.map Use.lenient) := by
      rintro ⟨done, st'⟩
      show usesFrom _ st'.lenient tokens >>= _ = _
      rw [ih st']
      exact bind_map_eq fun us => by simp [lenientStep, pure, Except.pure, Except.map]
    cases hlexeme : lexeme token with
    | terminator =>
      have hclose : st.lenient.waiting.close = _ := close_lenient st.waiting
      simp only [usesFrom, hlexeme, hclose]
      exact bind_map_eq fun closed => by simp [pure, Except.pure, Except.map, Use.lenient]
    | long name value =>
      simp only [usesFrom, hlexeme, longUses_lenient]
      exact bind_map_eq hrest
    | cluster flags =>
      simp only [usesFrom, hlexeme, clusterUses_lenient]
      exact bind_map_eq hrest
    | plain =>
      simp only [usesFrom, hlexeme, plainUses_lenient]
      exact hrest (plainUses st token)

end Scan

/-! ## What a scan does not ask for -/

section Faults

variable {α β : Type} {options : List CliOption} {st : State}

/-- Whatever goes wrong in a computation, it is not that a required option is missing. -/
def Unasked (x : Except OptionError α) : Prop := ∀ shorts, x ≠ .error (.missingRequired shorts)

theorem unasked_ok (a : α) : Unasked (.ok a) := fun _ h => by cases h

theorem Unasked.bind {x : Except OptionError α} {f : α → Except OptionError β} (hx : Unasked x)
    (hf : ∀ a, Unasked (f a)) : Unasked (x >>= f) := by
  cases x with
  | error e => exact fun shorts h => hx shorts (by cases h; rfl)
  | ok a => exact hf a

theorem unasked_occurrence (o : CliOption) (values : List Text) :
    Unasked (occurrence o values) := by
  intro shorts
  unfold occurrence
  split_ifs <;> simp

theorem unasked_flagUse (given : List Char) (o : CliOption) : Unasked (flagUse given o) := by
  intro shorts
  unfold flagUse
  split_ifs <;> simp

theorem unasked_close (w : Waiting) : Unasked w.close := by
  cases w with
  | none => exact unasked_ok []
  | some e => exact (unasked_occurrence e.1 e.2).bind fun use => unasked_ok [use]

theorem unasked_clusterUses (st : State) (flags : Text) :
    Unasked (clusterUses options st flags) := by
  induction flags generalizing st with
  | nil => exact unasked_ok _
  | cons c cs ih =>
    rw [clusterUses]
    cases options.find? (·.short == c) with
    | none => exact fun shorts h => by cases h
    | some o =>
      dsimp only
      split_ifs
      · exact (unasked_close _).bind fun closed => (unasked_flagUse _ o).bind fun use =>
          (ih _).bind fun r => unasked_ok _
      · refine (unasked_close _).bind fun closed => ?_
        cases cs with
        | nil => exact unasked_ok _
        | cons c' cs => exact (unasked_occurrence o _).bind fun use => unasked_ok _

theorem unasked_longUses (st : State) (name : Text) (value : Option Text) :
    Unasked (longUses options st name value) := by
  rw [longUses]
  cases options.find? (·.long == some name) with
  | none => exact fun shorts h => by cases h
  | some o =>
    dsimp only
    split
    · exact fun shorts h => by cases h
    · exact (unasked_close _).bind fun closed => (unasked_flagUse _ o).bind fun use => unasked_ok _
    · exact (unasked_close _).bind fun closed => (unasked_occurrence o _).bind fun use =>
        unasked_ok _
    · exact (unasked_close _).bind fun closed => unasked_ok _

theorem unasked_usesFrom (st : State) (tokens : List Text) :
    Unasked (usesFrom options st tokens) := by
  induction tokens generalizing st with
  | nil => exact unasked_close st.waiting
  | cons token tokens ih =>
    rw [usesFrom]
    cases lexeme token with
    | terminator => exact (unasked_close _).bind fun closed => unasked_ok _
    | long name value =>
      exact (unasked_longUses st name value).bind fun r => (ih r.2).bind fun us => unasked_ok _
    | cluster flags =>
      exact (unasked_clusterUses st flags).bind fun r => (ih r.2).bind fun us => unasked_ok _
    | plain => exact (ih _).bind fun us => unasked_ok _

end Faults

/-! ## The check at the end -/

section Checking

variable {options : List CliOption} {s : OptionSet} {tokens : List Text} {p : ParsedOptions}

theorem valuesFor_lenient (o : CliOption) (u : Use) :
    u.lenient.valuesFor o.lenient = u.valuesFor o := by
  cases u <;> rfl

theorem collect_lenient (us : List Use) :
    collect (options.map CliOption.lenient) (us.map Use.lenient) = collect options us := by
  have hgather : ∀ o : CliOption, gather o.lenient (us.map Use.lenient) = gather o us := by
    intro o
    have hcomp : Use.valuesFor o.lenient ∘ Use.lenient = Use.valuesFor o :=
      funext (valuesFor_lenient o)
    rw [gather_eq, gather_eq, List.filterMap_map, hcomp]
  have hpositionals : positionals (us.map Use.lenient) = positionals us := by
    unfold positionals
    rw [List.filterMap_map]
    refine List.filterMap_congr fun u _ => ?_
    cases u <;> rfl
  simp only [collect, List.filterMap_map, hpositionals]
  congr 1
  refine List.filterMap_congr fun o _ => ?_
  show (gather o.lenient _).map _ = _
  rw [hgather]
  rfl

/-- The check for required options, which is all that a set adds to its lenient one. -/
def checked (options : List CliOption) (p : ParsedOptions) : Except OptionError ParsedOptions :=
  match missing options p with
  | [] => .ok p
  | shorts => .error (.missingRequired shorts)

theorem checked_eq_ok {p' : ParsedOptions} :
    checked options p = .ok p' ↔ p = p' ∧ missing options p = [] := by
  unfold checked
  split <;> simp_all

theorem parse_eq (s : OptionSet) (tokens : List Text) :
    s.parse tokens =
      (uses s.options tokens).map (collect s.options) >>= checked s.options := by
  show parseWith s.options tokens = _
  unfold parseWith
  cases uses s.options tokens <;> rfl

theorem parse_lenient (s : OptionSet) (tokens : List Text) :
    s.lenient.parse tokens = (uses s.options tokens).map (collect s.options) := by
  have huses : uses s.lenient.options tokens = (uses s.options tokens).map (List.map Use.lenient) :=
    usesFrom_lenient ⟨none, []⟩ tokens
  have hmissing : ∀ p, missing s.lenient.options p = [] := by
    intro p
    simp [missing, OptionSet.lenient, CliOption.lenient]
  rw [parse_eq, huses]
  cases uses s.options tokens with
  | error e => rfl
  | ok us =>
    show checked _ (collect (s.options.map CliOption.lenient) (us.map Use.lenient)) = _
    rw [collect_lenient, checked, hmissing]
    rfl

theorem parse_eq_checked (s : OptionSet) (tokens : List Text) :
    s.parse tokens = s.lenient.parse tokens >>= checked s.options := by
  rw [parse_lenient, parse_eq]

theorem mem_missing {c : Char} :
    c ∈ missing options p ↔ ∃ o ∈ options, o.short = c ∧ o.required = true ∧ p.has c = false := by
  simp only [missing, List.mem_map, List.mem_filter, Bool.and_eq_true, Bool.not_eq_true']
  constructor
  · rintro ⟨o, ⟨ho, hrequired, hlacks⟩, rfl⟩
    exact ⟨o, ho, rfl, hrequired, hlacks⟩
  · rintro ⟨o, ho, rfl, hrequired, hlacks⟩
    exact ⟨o, ⟨ho, hrequired, hlacks⟩, rfl⟩

theorem ascending_missing (s : OptionSet) (p : ParsedOptions) :
    (missing s.options p).Pairwise fun a b => compare a b = .lt :=
  List.pairwise_map.2 (s.ascending.sublist List.filter_sublist)

/-- What is said of required options that are missing: one is named in the singular. -/
theorem message_missingRequired (shorts : List Char) :
    (OptionError.missingRequired shorts).message =
      (if shorts.length = 1 then ("Missing required option: " : Text)
        else "Missing required options: ") ++ Text.join ", " (shorts.map fun c => [c]) := by
  unfold OptionError.message
  cases shorts with
  | nil => simp
  | cons c cs =>
    cases cs with
    | nil => simp [Text.join]
    | cons c' cs => simp

/-- The error that required options are missing: it names exactly those of the set that have not
been given, in ascending order. -/
structure Reports (s : OptionSet) (p : ParsedOptions) (shorts : List Char) : Prop where
  mem_iff : ∀ c, c ∈ shorts ↔
    ∃ o ∈ s.options, o.short = c ∧ o.required = true ∧ p.has c = false
  ascending : shorts.Pairwise fun a b => compare a b = .lt
  message_eq : (OptionError.missingRequired shorts).message =
    (if shorts.length = 1 then ("Missing required option: " : Text)
      else "Missing required options: ") ++ Text.join ", " (shorts.map fun c => [c])

/-- Required options are asked for after, and only after, everything else has been read without an
error: the lenient set has the same errors, and what it reads is the result unless a required option
is missing from it. -/
theorem required_checked_last (s : OptionSet) (tokens : List Text) :
    (∀ e, s.lenient.parse tokens = .error e →
      s.parse tokens = .error e ∧ ∀ shorts, e ≠ .missingRequired shorts) ∧
    ∀ p, s.lenient.parse tokens = .ok p →
      ((∀ o ∈ s.options, o.required = true → p.has o.short = true) → s.parse tokens = .ok p) ∧
      ((∃ o ∈ s.options, o.required = true ∧ p.has o.short = false) →
        ∃ shorts, s.parse tokens = .error (.missingRequired shorts) ∧ Reports s p shorts) := by
  refine ⟨fun e he => ⟨?_, ?_⟩, fun p hp => ⟨fun hall => ?_, ?_⟩⟩
  · rw [parse_eq_checked s, he]
    rfl
  · rintro shorts rfl
    rw [parse_lenient] at he
    have hunasked : Unasked (uses s.options tokens) := unasked_usesFrom ⟨none, []⟩ tokens
    exact hunasked.bind (fun us => unasked_ok (collect s.options us)) shorts he
  · rw [parse_eq_checked s, hp]
    show checked s.options p = _
    rw [checked, missing_eq_nil_iff.2 hall]
  · rintro ⟨o, ho, hrequired, hlacks⟩
    have hmem : o.short ∈ missing s.options p := mem_missing.2 ⟨o, ho, rfl, hrequired, hlacks⟩
    refine ⟨missing s.options p, ?_, fun c => mem_missing, ascending_missing s p,
      message_missingRequired _⟩
    rw [parse_eq_checked s, hp]
    show checked s.options p = _
    unfold checked
    split
    · rename_i hnone
      rw [hnone] at hmem
      cases hmem
    · rfl

/-- A flag that is given twice is reported before the missing option. -/
theorem required_checked_last_mixed :
    mixedOptions.parse ["-v", "-v"] = .error (.duplicate flagOption.display) ∧
      mixedOptions.parse ["-v", "-r="] = .ok ⟨[('r', [[]]), ('v', [])], []⟩ ∧
      ∃ shorts, mixedOptions.parse ["-v", "x"] = .error (.missingRequired shorts) ∧
        Reports mixedOptions ⟨[('v', [])], ["x"]⟩ shorts := by
  have htwice := (required_checked_last mixedOptions ["-v", "-v"]).1 _ rfl
  have hgiven := ((required_checked_last mixedOptions ["-v", "-r="]).2 _ rfl).1 (by decide)
  have hlacks := ((required_checked_last mixedOptions ["-v", "x"]).2 _ rfl).2
    ⟨requiredOption, List.mem_cons_of_mem _ List.mem_cons_self, rfl, by decide⟩
  exact ⟨htwice.1, hgiven, hlacks⟩

end Checking

end Options

end ClusterConsole
