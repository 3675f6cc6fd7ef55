/-
A result of reading options accounts for every token (`parse_accounts`). The tokens before the
marker fall into portions: a positional argument, or a flag with the values that follow it. A flag
is a cluster of short names or a long name, perhaps with a value attached, so every stored value is
either a token that is no flag or the attached part of one, and none is stored twice.

An option that waits for values is what connects a token with those before it. The scan therefore
leaves, besides portions, the values that still go to the option that was waiting at its beginning
(`Fills`), and what a flag hands on is the option that it names last (`Leaves`).
-/
import ClusterConsole.Proofs.Options.Tokens
import ClusterConsole.Proofs.Options.Required

namespace ClusterConsole.Options

/-! ## Flags -/

/-- A flag: options without arguments, the option that is named last, and the value attached to
that. -/
structure Flag where
  bare : List CliOption
  last : CliOption
  attached : Option Text
deriving DecidableEq

/-- What stands behind a short name: nothing, or a value with an equals sign in front or without. -/
inductive Trails : Option Text → Text → Prop
  | none : Trails none []
  | direct {v : Text} (hne : v ≠ []) (hequals : v.head? ≠ some '=') : Trails (some v) v
  | equals (v : Text) : Trails (some v) ('=' :: v)

/-- The tokens that flags are written as: `--long`, `--long=value`, or `-abc` where what stands
behind the last name is its value. -/
inductive Flag.Spelled : Flag → Text → Prop
  | long {o : CliOption} {l : Text} (h : o.long = some l) : Spelled ⟨[], o, none⟩ ('-' :: '-' :: l)
  | longValue {o : CliOption} {l : Text} (h : o.long = some l) (v : Text) :
      Spelled ⟨[], o, some v⟩ ('-' :: '-' :: (l ++ '=' :: v))
  | short {bare : List CliOption} {o : CliOption} {value : Option Text} {rest : Text}
      (h : Trails value rest) :
      Spelled ⟨bare, o, value⟩ ('-' :: (bare.map CliOption.short ++ o.short :: rest))

/-! ## Portions -/

/-- A stretch of tokens: a flag with the values that follow it, or a positional argument. -/
inductive Portion
  | flag (token : Text) (flag : Flag) (values : List Text)
  | positional (token : Text)
deriving DecidableEq

namespace Portion

/-- The tokens of the portion. -/
def tokens : Portion → List Text
  | .flag token _ values => token :: values
  | .positional token => [token]

/-- The tokens of the portion behind its flag. -/
def plain : Portion → List Text
  | .flag _ _ values => values
  | .positional token => [token]

/-- The occurrences of options in the portion. Attached and following values go to the last. -/
def occurrences : Portion → List Occurrence
  | .flag _ f values => f.bare.map (⟨·, []⟩) ++ [⟨f.last, f.attached.toList ++ values⟩]
  | .positional _ => []

/-- The positional arguments in the portion. -/
def positionals : Portion → List Text
  | .flag _ _ _ => []
  | .positional token => [token]

/-- What the portion is used for. -/
def uses (q : Portion) : List Use :=
  q.occurrences.map Occurrence.use ++ q.positionals.map .positional

/-- The token of a flag spells it, the options are declared, and the last has a number of values that
it may have: one that is attached, or some that follow. -/
inductive Valid (s : OptionSet) : Portion → Prop
  | flag {token : Text} {f : Flag} {values : List Text} (hspelled : f.Spelled token)
      (hbare : ∀ o ∈ f.bare, o ∈ s.options ∧ o.args = 0) (hlast : f.last ∈ s.options)
      (hcount : f.last.Takes (f.attached.toList ++ values).length)
      (hattached : f.attached ≠ none → values = [])
      (hplain : ∀ v ∈ values, isPlain v = true) : Valid s (.flag token f values)
  | positional {token : Text} (hplain : isPlain token = true) : Valid s (.positional token)

end Portion

section Portions

variable {s : OptionSet} {f : Flag} {q : Portion} {token : Text}

theorem Flag.Spelled.not_isPlain (h : f.Spelled token) : isPlain token = false := by
  cases h with
  | long h => simp [isPlain]
  | longValue h v => simp [isPlain]
  | @short bare o value rest h =>
    have hne : bare.map CliOption.short ++ o.short :: rest ≠ [] := by simp
    simp [isPlain, hne]

theorem Portion.Valid.filter_tokens (h : q.Valid s) : q.tokens.filter isPlain = q.plain := by
  cases h with
  | flag hspelled _ _ _ _ hplain =>
    rw [Portion.tokens, List.filter_cons_of_neg (by simp [hspelled.not_isPlain])]
    exact List.filter_eq_self.2 hplain
  | positional hplain => simp [Portion.tokens, Portion.plain, hplain]

theorem Portion.Valid.declared (h : q.Valid s) {x : Occurrence} (hx : x ∈ q.occurrences) :
    x.option ∈ s.options ∧ x.option.Takes x.values.length := by
  cases h with
  | flag _ hbare hlast hcount _ _ =>
    rw [Portion.occurrences, List.mem_append, List.mem_singleton, List.mem_map] at hx
    rcases hx with ⟨o, ho, rfl⟩ | rfl
    · exact ⟨(hbare o ho).1, Or.inl (hbare o ho).2.symm⟩
    · exact ⟨hlast, hcount⟩
  | positional => cases hx

end Portions

/-! ## What is left open -/

/-- The values that an option that waits takes on, and its occurrence then. -/
inductive Fills : Waiting → List Text → List Use → Prop
  | none : Fills none [] []
  | some {o : CliOption} {got values : List Text} (h : o.Takes (got ++ values).length) :
      Fills (some (o, got)) values [.occurrence o (got ++ values)]

/-- What has become of the last option of a flag when the flag has been read: it is complete with
the value attached to it, if any, or it waits for values. -/
inductive Leaves (o : CliOption) : Option Text → List Use → Waiting → Prop
  | complete {attached : Option Text} (h : o.Takes attached.toList.length) :
      Leaves o attached [.occurrence o attached.toList] none
  | waiting (hargs : o.args ≠ 0) : Leaves o none [] (some (o, []))

section Open

variable {w : Waiting} {owed last : List Use} {values : List Text} {o : CliOption}

theorem takes_of_occurrence {use : Use} (h : occurrence o values = .ok use) :
    o.Takes values.length ∧ use = .occurrence o values := by
  unfold occurrence at h
  split_ifs at h with haccepts
  cases h
  exact ⟨CliOption.accepts_iff.1 haccepts, rfl⟩

theorem fills_of_close (h : w.close = .ok owed) : Fills w [] owed := by
  cases w with
  | none =>
    cases h
    exact .none
  | some e =>
    obtain ⟨o, got⟩ := e
    obtain ⟨use, huse, rfl⟩ := map_eq_ok.1 h
    obtain ⟨htakes, rfl⟩ := takes_of_occurrence huse
    have hfills := @Fills.some o got [] (by rwa [List.append_nil])
    rwa [List.append_nil] at hfills

/-- The last option of a flag ends with the value attached to it or with those that follow. -/
theorem Leaves.fills {attached : Option Text} (h : Leaves o attached last w)
    (hfills : Fills w values owed) :
    last ++ owed = [.occurrence o (attached.toList ++ values)] ∧
      o.Takes (attached.toList ++ values).length ∧ (attached ≠ none → values = []) := by
  cases h with
  | complete htakes =>
    cases hfills
    simpa using htakes
  | waiting hargs =>
    cases hfills with
    | some htakes => exact ⟨rfl, htakes, fun hne => absurd rfl hne⟩

end Open

/-! ## Reading a flag -/

section Reading

variable {s : OptionSet} {st st' : State} {token : Text} {tokens rest : List Text} {us : List Use}

/-- A flag has been read: the option that waited is closed, the options without arguments occur, and
the last option is left as it is. -/
inductive FlagRead (s : OptionSet) (st : State) (f : Flag) (us : List Use) (w : Waiting) : Prop
  | intro {owed last : List Use} (hclose : st.waiting.close = .ok owed)
      (hbare : ∀ o ∈ f.bare, o ∈ s.options ∧ o.args = 0) (hlast : f.last ∈ s.options)
      (hleaves : Leaves f.last f.attached last w)
      (huses : us = owed ++ f.bare.map (.occurrence · []) ++ last)

theorem eq_of_flagUse {given : List Char} {o : CliOption} {use : Use}
    (h : flagUse given o = .ok use) : use = .occurrence o [] := by
  unfold flagUse at h
  split_ifs at h
  cases h
  rfl

theorem leaves_bare {o : CliOption} (h : o.args = 0) :
    Leaves o none [.occurrence o []] none :=
  .complete (Or.inl h.symm)

theorem flagRead_of_longUses {name : Text} {value : Option Text}
    (h : longUses s.options st name value = .ok (us, st')) :
    ∃ o, o.long = some name ∧ FlagRead s st ⟨[], o, value⟩ us st'.waiting := by
  unfold longUses at h
  split at h
  · cases h
  · rename_i o hfind
    have ho := List.mem_of_find?_eq_some hfind
    have hlong : o.long = some name := by simpa using List.find?_some hfind
    refine ⟨o, hlong, ?_⟩
    split at h
    · cases h
    · rename_i hargs
      obtain ⟨owed, hclose, h⟩ := bind_eq_ok.1 h
      obtain ⟨use, huse, h⟩ := bind_eq_ok.1 h
      cases h
      rw [eq_of_flagUse huse]
      exact ⟨hclose, by simp, ho, leaves_bare hargs, by simp⟩
    · rename_i v _ _
      obtain ⟨owed, hclose, h⟩ := bind_eq_ok.1 h
      obtain ⟨use, huse, h⟩ := bind_eq_ok.1 h
      cases h
      obtain ⟨htakes, rfl⟩ := takes_of_occurrence huse
      exact ⟨hclose, by simp, ho, .complete htakes, by simp⟩
    · rename_i n hargs
      obtain ⟨owed, hclose, h⟩ := bind_eq_ok.1 h
      cases h
      exact ⟨hclose, by simp, ho, .waiting (by rw [hargs]; exact Nat.succ_ne_zero n), by simp⟩

theorem trails_attached {cs : Text} (hne : cs ≠ []) : Trails (some (attached cs)) cs := by
  cases cs with
  | nil => exact absurd rfl hne
  | cons c cs =>
    by_cases hc : c = '='
    · subst hc
      exact .equals cs
    · have hself : attached (c :: cs) = c :: cs := by
        rw [attached]
        exact fun _ heq => hc (List.cons.inj heq).1
      rw [hself]
      exact .direct (by simp) (by simpa using hc)

/-- Along the short names: those before the last are of options without arguments. -/
theorem flagRead_of_clusterUses {cs : Text} (hne : cs ≠ [])
    (h : clusterUses s.options st cs = .ok (us, st')) :
    ∃ f trail, cs = f.bare.map CliOption.short ++ f.last.short :: trail ∧ Trails f.attached trail ∧
      FlagRead s st f us st'.waiting := by
  induction cs generalizing st us with
  | nil => exact absurd rfl hne
  | cons c cs ih =>
    rw [clusterUses] at h
    split at h
    · cases h
    · rename_i o hfind
      have ho := List.mem_of_find?_eq_some hfind
      have hshort : o.short = c := by simpa using List.find?_some hfind
      subst hshort
      split_ifs at h with hargs
      · obtain ⟨owed, hclose, h⟩ := bind_eq_ok.1 h
        obtain ⟨use, huse, h⟩ := bind_eq_ok.1 h
        obtain ⟨⟨us', st''⟩, hrest, h⟩ := bind_eq_ok.1 h
        cases h
        rw [eq_of_flagUse huse]
        -- an option without arguments is the last of the cluster only if nothing is behind it
        by_cases hnil : cs = []
        · subst hnil
          cases hrest
          exact ⟨⟨[], o, none⟩, [], rfl, .none, hclose, by simp, ho, leaves_bare hargs, by simp⟩
        · obtain ⟨f, trail, hsplit, htrails, hclose', hbare, hlast, hleaves, huses⟩ := ih hnil hrest
          cases hclose'
          exact ⟨⟨o :: f.bare, f.last, f.attached⟩, trail, by rw [hsplit]; rfl, htrails, hclose,
            List.forall_mem_cons.2 ⟨⟨ho, hargs⟩, hbare⟩, hlast, hleaves, by simp [huses]⟩
      · obtain ⟨owed, hclose, h⟩ := bind_eq_ok.1 h
        cases cs with
        | nil =>
          cases h
          exact ⟨⟨[], o, none⟩, [], rfl, .none, hclose, by simp, ho, .waiting hargs, by simp⟩
        | cons c' cs =>
          obtain ⟨use, huse, h⟩ := bind_eq_ok.1 h
          cases h
          obtain ⟨htakes, rfl⟩ := takes_of_occurrence huse
          exact ⟨⟨[], o, some (attached (c' :: cs))⟩, c' :: cs, rfl, trails_attached (by simp),
            hclose, by simp, ho, .complete htakes, by simp⟩

/-- Reading a token that begins with a hyphen and is longer reads a flag, and the scan goes on from
where that leaves it. -/
theorem exists_flagRead (hflag : isPlain token = false) (hmarker : token ≠ marker)
    (h : usesFrom s.options st (token :: rest) = .ok us) :
    ∃ f done st' us', f.Spelled token ∧ FlagRead s st f done st'.waiting ∧
      usesFrom s.options st' rest = .ok us' ∧ us = done ++ us' := by
  rcases exists_of_not_isPlain hflag hmarker with ⟨body, hbody, rfl⟩ | ⟨c, cs, hc, rfl⟩
  · simp only [usesFrom, lexeme_long hbody] at h
    obtain ⟨⟨done, st'⟩, hlong, h⟩ := bind_eq_ok.1 h
    obtain ⟨us', hrest, h⟩ := bind_eq_ok.1 h
    cases h
    obtain ⟨o, hname, hread⟩ := flagRead_of_longUses hlong
    refine ⟨_, done, st', us', ?_, hread, hrest, rfl⟩
    by_cases hequals : '=' ∈ body
    · obtain ⟨l, v, rfl, hl⟩ := List.eq_append_cons_of_mem hequals
      rw [cutAtEquals_append hl] at hname ⊢
      exact .longValue hname v
    · rw [cutAtEquals_self hequals] at hname ⊢
      exact .long hname
  · simp only [usesFrom, lexeme_cluster hc] at h
    obtain ⟨⟨done, st'⟩, hcluster, h⟩ := bind_eq_ok.1 h
    obtain ⟨us', hrest, h⟩ := bind_eq_ok.1 h
    cases h
    obtain ⟨⟨bare, last, value⟩, trail, hsplit, htrails, hread⟩ :=
      flagRead_of_clusterUses (by simp) hcluster
    refine ⟨_, done, st', us', ?_, hread, hrest, rfl⟩
    rw [hsplit]
    exact .short htrails

end Reading

/-! ## The whole scan -/

/-- An option that waits can take another value. -/
def Waiting.Room (w : Waiting) : Prop := ∀ e ∈ w, e.2.length < e.1.args

theorem Leaves.room {o : CliOption} {attached : Option Text} {last : List Use} {w : Waiting}
    (h : Leaves o attached last w) : w.Room := by
  cases h with
  | complete _ => rintro e ⟨⟩
  | waiting hargs =>
    rintro e ⟨⟩
    exact Nat.pos_of_ne_zero hargs

/-- What a scan has made of the tokens up to the marker and behind it: the first of them go to the
option that waits, the others up to the marker fall into portions, and those behind it are
positional arguments. -/
inductive Divided (s : OptionSet) (w : Waiting) (before after : List Text) (us : List Use) : Prop
  | intro (values : List Text) (owed : List Use) (portions : List Portion)
      (hbefore : before = values ++ portions.flatMap Portion.tokens)
      (hplain : ∀ v ∈ values, isPlain v = true) (hvalid : ∀ q ∈ portions, q.Valid s)
      (hfills : Fills w values owed)
      (huses : us = owed ++ portions.flatMap Portion.uses ++ after.map .positional)

section Dividing

variable {s : OptionSet} {st : State} {f : Flag} {token : Text} {tokens before after : List Text}
  {us done : List Use} {o : CliOption} {got : List Text} {w : Waiting}

theorem divided_of_close (h : w.close = .ok us) (after : List Text) :
    Divided s w [] after (us ++ after.map .positional) :=
  .intro [] us [] rfl (by simp) (by simp) (fills_of_close h) (by simp)

theorem Divided.positional (h : Divided s none before after us) (hplain : isPlain token = true) :
    Divided s none (token :: before) after (.positional token :: us) := by
  obtain ⟨values, owed, portions, rfl, -, hvalid, hfills, rfl⟩ := h
  cases hfills
  refine .intro [] [] (.positional token :: portions) rfl (by simp)
    (List.forall_mem_cons.2 ⟨.positional hplain, hvalid⟩) .none ?_
  simp [Portion.uses, Portion.occurrences, Portion.positionals]

theorem Divided.value (h : Divided s (some (o, got ++ [token])) before after us)
    (hplain : isPlain token = true) : Divided s (some (o, got)) (token :: before) after us := by
  obtain ⟨values, owed, portions, rfl, hvalues, hvalid, hfills, rfl⟩ := h
  cases hfills with
  | some htakes =>
    refine .intro (token :: values) _ portions rfl (List.forall_mem_cons.2 ⟨hplain, hvalues⟩) hvalid
      (.some (by simpa using htakes)) ?_
    simp

theorem Divided.full (h : Divided s none before after us) (hplain : isPlain token = true)
    (hfull : (got ++ [token]).length = o.args) :
    Divided s (some (o, got)) (token :: before) after (.occurrence o (got ++ [token]) :: us) := by
  obtain ⟨values, owed, portions, rfl, -, hvalid, hfills, rfl⟩ := h
  cases hfills
  exact .intro [token] _ portions rfl (by simpa using hplain) hvalid (.some (Or.inl hfull))
    (by simp)

/-- A flag, and the values behind it that its last option waits for. -/
theorem Divided.flag (h : Divided s w before after us) (hspelled : f.Spelled token)
    (hread : FlagRead s st f done w) :
    Divided s st.waiting (token :: before) after (done ++ us) := by
  obtain ⟨hclose, hbare, hlast, hleaves, rfl⟩ := hread
  obtain ⟨values, owed', portions, rfl, hvalues, hvalid, hfills, rfl⟩ := h
  obtain ⟨huse, htakes, hattached⟩ := hleaves.fills hfills
  have hflag : (Portion.flag token f values).Valid s :=
    .flag hspelled hbare hlast htakes hattached hvalues
  refine .intro [] _ (.flag token f values :: portions) rfl (by simp)
    (List.forall_mem_cons.2 ⟨hflag, hvalid⟩) (fills_of_close hclose) ?_
  have huses : (Portion.flag token f values).uses =
      f.bare.map (.occurrence · []) ++
        [.occurrence f.last (f.attached.toList ++ values)] := by
    simp [Portion.uses, Portion.occurrences, Portion.positionals, Occurrence.use]
  rw [List.flatMap_cons, huses, ← huse]
  simp

/-- By induction on the tokens, each of which is read from a state with room. -/
theorem divided_of_usesFrom (hroom : st.waiting.Room)
    (h : usesFrom s.options st tokens = .ok us) :
    Divided s st.waiting (beforeMarker tokens) (afterMarker tokens) us := by
  induction tokens generalizing st us with
  | nil => simpa using divided_of_close h []
  | cons token tokens ih =>
    by_cases hmarker : token = marker
    · subst hmarker
      rw [usesFrom_marker] at h
      obtain ⟨owed, hclose, rfl⟩ := map_eq_ok.1 h
      rw [beforeMarker_marker, afterMarker_marker]
      exact divided_of_close hclose tokens
    · rw [beforeMarker_cons hmarker, afterMarker_cons hmarker]
      cases hplain : isPlain token with
      | false =>
        obtain ⟨f, done, st', us', hspelled, hread, hrest, rfl⟩ := exists_flagRead hplain hmarker h
        have hroom' : st'.waiting.Room := by
          obtain ⟨-, -, -, hleaves, -⟩ := hread
          exact hleaves.room
        exact (ih hroom' hrest).flag hspelled hread
      | true =>
        rw [usesFrom_plain (lexeme_of_isPlain hplain)] at h
        obtain ⟨us', hrest, rfl⟩ := map_eq_ok.1 h
        obtain ⟨waiting, given⟩ := st
        cases waiting with
        | none => exact (ih hroom hrest).positional hplain
        | some e =>
          obtain ⟨o, got⟩ := e
          -- the value goes to the option that waits, which waits on or is complete with it
          have hgot : got.length < o.args := hroom (o, got) rfl
          by_cases hmore : (got ++ [token]).length < o.args
          · have hstep : plainUses ⟨some (o, got), given⟩ token =
                ([], ⟨some (o, got ++ [token]), given⟩) := by simp only [plainUses, if_pos hmore]
            rw [hstep] at hrest ⊢
            refine (ih ?_ hrest).value hplain
            rintro e ⟨⟩
            exact hmore
          · have hstep : plainUses ⟨some (o, got), given⟩ token =
                ([.occurrence o (got ++ [token])], ⟨none, given⟩) := by
              simp only [plainUses, if_neg hmore]
            have hfull : (got ++ [token]).length = o.args := by
              rw [List.length_append, List.length_singleton] at hmore ⊢
              omega
            rw [hstep] at hrest ⊢
            have hnone : Waiting.Room none := by rintro e ⟨⟩
            exact (ih hnone hrest).full hplain hfull

end Dividing

/-! ## What a command sees -/

section Seeing

variable {s : OptionSet} {portions : List Portion} {after tokens : List Text} {p : ParsedOptions}
  {xs : List Occurrence} {o : CliOption}

theorem valuesFor_portions (o : CliOption) (portions : List Portion) :
    (portions.flatMap Portion.uses).filterMap (Use.valuesFor o) =
      ((portions.flatMap Portion.occurrences).map Occurrence.use).filterMap (Use.valuesFor o) := by
  induction portions with
  | nil => rfl
  | cons q portions ih =>
    rw [List.flatMap_cons, List.flatMap_cons, List.map_append, List.filterMap_append,
      List.filterMap_append, ih, Portion.uses, List.filterMap_append, valuesFor_positionals,
      List.append_nil]

theorem positionals_portions (portions : List Portion) (after : List Text) :
    positionals (portions.flatMap Portion.uses ++ after.map .positional) =
      portions.flatMap Portion.positionals ++ after := by
  induction portions with
  | nil => exact @positionals_uses [] after
  | cons q portions ih =>
    rw [List.flatMap_cons, List.flatMap_cons, List.append_assoc, positionals_append, ih,
      Portion.uses, positionals_uses, List.append_assoc]

/-- A command does not see where positional arguments stand between options. -/
theorem collect_portions (options : List CliOption) (portions : List Portion) (after : List Text) :
    collect options (portions.flatMap Portion.uses ++ after.map .positional) =
      collect options ((portions.flatMap Portion.occurrences).map Occurrence.use ++
        (portions.flatMap Portion.positionals ++ after).map .positional) := by
  have hgather : ∀ o, gather o (portions.flatMap Portion.uses ++ after.map .positional) =
      gather o ((portions.flatMap Portion.occurrences).map Occurrence.use ++
        (portions.flatMap Portion.positionals ++ after).map .positional) := by
    intro o
    rw [gather_eq, gather_eq, List.filterMap_append, List.filterMap_append, valuesFor_portions,
      valuesFor_positionals, valuesFor_positionals]
  simp only [collect, hgather, positionals_portions, positionals_uses]

theorem declared_summary {e : Char × List Text} (he : e ∈ (summary s xs after).given) :
    ∃ o ∈ s.options, o.short = e.1 := by
  obtain ⟨o, ho, hsome⟩ := List.mem_filterMap.1 he
  split_ifs at hsome
  cases hsome
  exact ⟨o, ho, rfl⟩

theorem length_values (ho : o ∈ s.options) :
    ((summary s xs after).values o.short).length =
      ((xs.filter (·.option = o)).map fun x => x.values.length).sum := by
  rw [values_summary ho, List.length_flatMap]
  rfl

theorem length_values_le (htakes : ∀ x ∈ xs, x.option.Takes x.values.length) (ho : o ∈ s.options) :
    ((summary s xs after).values o.short).length ≤
      o.args * (xs.filter (·.option = o)).length := by
  have hle : ∀ n ∈ (xs.filter (·.option = o)).map fun x => x.values.length, n ≤ o.args := by
    simp only [List.forall_mem_map, List.mem_filter, decide_eq_true_eq]
    rintro x ⟨hx, rfl⟩
    exact (htakes x hx).le
  have hsum := List.sum_le_card_nsmul _ _ hle
  rwa [List.length_map, smul_eq_mul, Nat.mul_comm, ← length_values ho] at hsum

theorem values_eq_nil (htakes : ∀ x ∈ xs, x.option.Takes x.values.length) (ho : o ∈ s.options)
    (hargs : o.args = 0) : (summary s xs after).values o.short = [] := by
  have hle := @length_values_le s after xs o htakes ho
  rw [hargs, Nat.zero_mul] at hle
  exact List.length_eq_zero_iff.1 (Nat.le_zero.1 hle)

theorem length_values_eq (htakes : ∀ x ∈ xs, x.option.Takes x.values.length) (ho : o ∈ s.options)
    (hoptional : o.optionalArg = false) :
    ((summary s xs after).values o.short).length =
      o.args * (xs.filter (·.option = o)).length := by
  have heq : ∀ n ∈ (xs.filter (·.option = o)).map fun x => x.values.length, n = o.args := by
    simp only [List.forall_mem_map, List.mem_filter, decide_eq_true_eq]
    rintro x ⟨hx, rfl⟩
    rcases htakes x hx with heq | ⟨htrue, -⟩
    · exact heq
    · rw [hoptional] at htrue
      cases htrue
  have hsum := List.sum_eq_card_nsmul _ _ heq
  rwa [List.length_map, smul_eq_mul, Nat.mul_comm, ← length_values ho] at hsum

/-- A result that accounts for all tokens. The tokens before the marker fall into portions; the
options occur, and the values and the positional arguments are, as the portions say. -/
structure Accounted (s : OptionSet) (tokens : List Text) (p : ParsedOptions)
    (portions : List Portion) : Prop where
  /-- Each token before the marker has its place in exactly one portion, in order. -/
  tokens_eq : portions.flatMap Portion.tokens = beforeMarker tokens
  valid : ∀ q ∈ portions, q.Valid s
  /-- Those that are no flags are the values behind flags and the positional arguments. -/
  plain_eq : portions.flatMap Portion.plain = (beforeMarker tokens).filter isPlain
  /-- The options that occur have been given, each with the values of its occurrences one after
  another; all tokens behind the marker are positional arguments. -/
  presents : Presents p s (portions.flatMap Portion.occurrences)
    (portions.flatMap Portion.positionals ++ afterMarker tokens)
  /-- Nothing is filed under a name that no option of the set has. -/
  declared : ∀ e ∈ p.given, ∃ o ∈ s.options, o.short = e.1
  required : ∀ o ∈ s.options, o.required = true → p.has o.short = true
  values_nil : ∀ o ∈ s.options, o.args = 0 → p.values o.short = []
  /-- The number of values is the number of arguments for each occurrence. -/
  length_eq : ∀ o ∈ s.options, o.optionalArg = false → (p.values o.short).length =
    o.args * ((portions.flatMap Portion.occurrences).filter (·.option = o)).length
  /-- It may be smaller where arguments are optional. -/
  length_le : ∀ o ∈ s.options, (p.values o.short).length ≤
    o.args * ((portions.flatMap Portion.occurrences).filter (·.option = o)).length

theorem declared_of_valid (hvalid : ∀ q ∈ portions, q.Valid s) {x : Occurrence}
    (hx : x ∈ portions.flatMap Portion.occurrences) :
    x.option ∈ s.options ∧ x.option.Takes x.values.length := by
  obtain ⟨q, hq, hx⟩ := List.mem_flatMap.1 hx
  exact (hvalid q hq).declared hx

/-- Tokens that can be read are all accounted for. -/
theorem parse_accounts (h : s.parse tokens = .ok p) :
    ∃ portions, Accounted s tokens p portions := by
  rw [parse_eq] at h
  obtain ⟨p', hcollect, hchecked⟩ := bind_eq_ok.1 h
  obtain ⟨us, huses, rfl⟩ := map_eq_ok.1 hcollect
  obtain ⟨rfl, hmissing⟩ := checked_eq_ok.1 hchecked
  -- nothing waits at the beginning, so no value stands before the portions
  have hnone : Waiting.Room none := by rintro e ⟨⟩
  obtain ⟨values, owed, portions, hbefore, -, hvalid, hfills, rfl⟩ :=
    divided_of_usesFrom hnone huses
  cases hfills
  have hdeclared : ∀ x ∈ portions.flatMap Portion.occurrences, x.option ∈ s.options :=
    fun x hx => (declared_of_valid hvalid hx).1
  have htakes : ∀ x ∈ portions.flatMap Portion.occurrences, x.option.Takes x.values.length :=
    fun x hx => (declared_of_valid hvalid hx).2
  rw [List.nil_append, collect_portions, collect_uses hdeclared] at hmissing ⊢
  have htokens : portions.flatMap Portion.tokens = beforeMarker tokens := hbefore.symm
  refine ⟨portions, htokens, hvalid, ?_, ⟨fun c => has_summary hdeclared,
    fun o ho => values_summary ho, rfl⟩, fun e he => declared_summary he,
    missing_eq_nil_iff.1 hmissing, fun o ho hargs => values_eq_nil htakes ho hargs,
    fun o ho hoptional => length_values_eq htakes ho hoptional,
    fun o ho => length_values_le htakes ho⟩
  rw [← htokens, List.filter_flatMap]
  exact List.flatMap_congr fun q hq => (hvalid q hq).filter_tokens.symm

/-- Tokens with a cluster that ends in an attached value, values that follow a flag, and arguments
between the options and behind the marker. -/
def accountedTokens : List Text :=
  ["-vp=1", "x", "--pair", "a", "b", "c", "--required=-v", "-", "--", "-v"]

def accountedResult : ParsedOptions :=
  ⟨[('p', ["1", "a", "b"]), ('r', ["-v"]), ('v', [])], ["x", "c", "-", "-v"]⟩

theorem parse_accounts_cluster :
    mixedOptions.parse accountedTokens = .ok accountedResult ∧
      ∃ portions, Accounted mixedOptions accountedTokens accountedResult portions := by
  have hparse : mixedOptions.parse accountedTokens = .ok accountedResult := by rfl
  exact ⟨hparse, parse_accounts hparse⟩

end Seeing

end ClusterConsole.Options
