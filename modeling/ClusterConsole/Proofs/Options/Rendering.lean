/-
Reading options undoes writing them (`parse_rendered`). Occurrences of the options of a set may be
written in any order and in any spelling: the short or the long name with the values after it as
tokens of their own, or with one value attached by an equals sign, whatever characters that has.

The scan keeps an option that still takes values. What a token leaves to be closed is carried along
as owed (`Reads`): the next name or `--` closes it, and an option with values to spare is closed
just the same as one that has all of them.
-/
import ClusterConsole.Options.Parse
import ClusterConsole.Proofs.Ascending

namespace ClusterConsole

open Options

/-! ## Finding options by name -/

namespace OptionSet

variable {s : OptionSet} {o o' : CliOption} {l : Text}

theorem eq_of_short_eq (ho : o ∈ s.options) (ho' : o' ∈ s.options) (h : o.short = o'.short) :
    o = o' := by
  have hcompare : compare o.short o'.short = .eq := by
    rw [h]
    exact Std.ReflCmp.compare_self
  exact Ascending.eq_of_compare_eq s.ascending ho ho' hcompare

theorem eq_of_long_eq (ho : o ∈ s.options) (ho' : o' ∈ s.options) (hl : o.long = some l)
    (hl' : o'.long = some l) : o = o' := by
  by_contra hne
  have hdistinct : s.options.Pairwise fun a b => ∀ l, a.long = some l → b.long ≠ some l := s.longs
  have hsymm : Std.Symm fun a b : CliOption => ∀ l, a.long = some l → b.long ≠ some l :=
    ⟨fun a b h l hb ha => h l ha hb⟩
  exact hdistinct.forall ho ho' hne l hl hl'

theorem find?_of_unique {p : CliOption → Bool} {options : List CliOption} (ho : o ∈ options)
    (hp : p o = true) (hunique : ∀ o' ∈ options, p o' = true → o' = o) :
    options.find? p = some o := by
  cases hfind : options.find? p with
  | none => exact absurd hp (List.find?_eq_none.1 hfind o ho)
  | some o' =>
    rw [hunique o' (List.mem_of_find?_eq_some hfind) (List.find?_some hfind)]

theorem find?_short (ho : o ∈ s.options) : s.options.find? (·.short == o.short) = some o :=
  find?_of_unique ho (by simp) fun _ ho' h => eq_of_short_eq ho' ho (by simpa using h)

theorem find?_long (ho : o ∈ s.options) (hl : o.long = some l) :
    s.options.find? (·.long == some l) = some o :=
  find?_of_unique ho (by simp [hl]) fun _ ho' h => eq_of_long_eq ho' ho (by simpa using h) hl

end OptionSet

namespace CliOption

theorem short_ne_hyphen (o : CliOption) : o.short ≠ '-' := by
  intro h
  have hok := o.short_ok
  rw [h] at hok
  exact absurd hok (by decide)

theorem long_props {o : CliOption} {l : Text} (hl : o.long = some l) : l ≠ [] ∧ '=' ∉ l := by
  have hok := o.long_ok
  rw [hl] at hok
  simp only [Option.all_some, isLongName, Bool.and_eq_true, Bool.not_eq_true'] at hok
  obtain ⟨⟨hne, -⟩, hall⟩ := hok
  refine ⟨by simpa using hne, fun hmem => ?_⟩
  exact absurd (List.all_eq_true.1 hall _ hmem) (by decide)

/-- How many values one occurrence of the option may have. -/
def Takes (o : CliOption) (n : Nat) : Prop := n = o.args ∨ o.optionalArg = true ∧ n ≤ o.args

theorem accepts_iff {o : CliOption} {n : Nat} : o.accepts n = true ↔ o.Takes n := by
  simp [accepts, Takes]

theorem Takes.le {o : CliOption} {n : Nat} (h : o.Takes n) : n ≤ o.args := by
  rcases h with rfl | ⟨-, h⟩
  · exact Nat.le_refl _
  · exact h

/-- The token that names the option. -/
inductive Names (o : CliOption) : Text → Prop
  | short : Names o ['-', o.short]
  | long {l : Text} (h : o.long = some l) : Names o ('-' :: '-' :: l)

end CliOption

namespace Options

/-! ## Writing occurrences -/

/-- One occurrence of an option. -/
structure Occurrence where
  option : CliOption
  values : List Text
deriving DecidableEq

/-- The tokens that an occurrence is written as: the name and the values behind it, if none of them
can be taken for an option, or the name with one value attached. -/
inductive Occurrence.Written : Occurrence → List Text → Prop
  | apart {o : CliOption} {name : Text} {vs : List Text} (hname : o.Names name)
      (hcount : o.Takes vs.length) (hplain : ∀ v ∈ vs, v.head? ≠ some '-') :
      Written ⟨o, vs⟩ (name :: vs)
  | attached {o : CliOption} {name v : Text} (hname : o.Names name) (hcount : o.Takes 1) :
      Written ⟨o, [v]⟩ [name ++ '=' :: v]

/-- The tokens that occurrences are written as, one after another. -/
inductive Rendered : List Occurrence → List Text → Prop
  | nil : Rendered [] []
  | cons {x : Occurrence} {xs : List Occurrence} {tokens rest : List Text}
      (hx : x.Written tokens) (hxs : Rendered xs rest) : Rendered (x :: xs) (tokens ++ rest)

/-- Occurrences of options of the set: each required option occurs, and none without arguments
occurs twice. -/
structure Admitted (s : OptionSet) (xs : List Occurrence) : Prop where
  declared : ∀ x ∈ xs, x.option ∈ s.options
  required : ∀ o ∈ s.options, o.required = true → ∃ x ∈ xs, x.option = o
  once : ∀ o ∈ s.options, o.args = 0 → (xs.filter (·.option = o)).length ≤ 1

/-! ## Tokens -/

theorem lexeme_plain {v : Text} (h : v.head? ≠ some '-') : lexeme v = .plain := by
  unfold lexeme
  split <;> simp_all

theorem cutAtEquals_append {l : Text} (h : '=' ∉ l) (v : Text) :
    cutAtEquals (l ++ '=' :: v) = (l, some v) := by
  induction l with
  | nil => rfl
  | cons c l ih =>
    obtain ⟨hc, hl⟩ := not_or.1 (List.mem_cons.not.1 h)
    rw [List.cons_append, cutAtEquals, ih hl]
    exact fun heq => hc heq.symm

theorem cutAtEquals_self {l : Text} (h : '=' ∉ l) : cutAtEquals l = (l, none) := by
  induction l with
  | nil => rfl
  | cons c l ih =>
    obtain ⟨hc, hl⟩ := not_or.1 (List.mem_cons.not.1 h)
    rw [cutAtEquals, ih hl]
    exact fun heq => hc heq.symm

theorem lexeme_cluster {c : Char} (h : c ≠ '-') (cs : Text) :
    lexeme ('-' :: c :: cs) = .cluster (c :: cs) := by
  unfold lexeme
  split <;> simp_all

theorem lexeme_long {body : Text} (h : body ≠ []) :
    lexeme ('-' :: '-' :: body) = .long (cutAtEquals body).1 (cutAtEquals body).2 := by
  cases body with
  | nil => exact absurd rfl h
  | cons c cs => rfl

/-! ## The scan -/

section Scan

variable {options : List CliOption} {st st' : State} {token : Text} {rest : List Text}
  {us owed : List Use} {given : List Char}

theorem usesFrom_cluster {flags : Text} (ht : lexeme token = .cluster flags)
    (h : clusterUses options st flags = .ok (us, st')) :
    usesFrom options st (token :: rest) = (usesFrom options st' rest).map (us ++ ·) := by
  simp only [usesFrom, ht, h, bind, Except.bind]
  cases usesFrom options st' rest <;> rfl

theorem usesFrom_long {name : Text} {value : Option Text} (ht : lexeme token = .long name value)
    (h : longUses options st name value = .ok (us, st')) :
    usesFrom options st (token :: rest) = (usesFrom options st' rest).map (us ++ ·) := by
  simp only [usesFrom, ht, h, bind, Except.bind]
  cases usesFrom options st' rest <;> rfl

theorem usesFrom_plain (ht : lexeme token = .plain) :
    usesFrom options st (token :: rest) =
      (usesFrom options (plainUses st token).2 rest).map ((plainUses st token).1 ++ ·) := by
  simp only [usesFrom, ht, bind, Except.bind]
  cases usesFrom options (plainUses st token).2 rest <;> rfl

/-- Whatever comes after the tokens, they are read as the uses, of which some may still be owed by
the option that waits for values then. -/
def Reads (options : List CliOption) (st : State) (tokens : List Text) (us : List Use)
    (given : List Char) : Prop :=
  ∃ st' done owed, (∀ rest, usesFrom options st (tokens ++ rest) =
      (usesFrom options st' rest).map (done ++ ·)) ∧
    st'.waiting.close = .ok owed ∧ done ++ owed = us ∧ st'.given = given

theorem reads_nil (h : st.waiting.close = .ok owed) : Reads options st [] owed st.given :=
  ⟨st, [], owed, fun rest => by cases h : usesFrom options st rest <;> simp [h, Except.map], h, rfl,
    rfl⟩

theorem Reads.append {tokens tokens' : List Text} {us us' : List Use} {given given' : List Char}
    (h : Reads options st tokens us given)
    (h' : ∀ st' owed, st'.waiting.close = .ok owed → st'.given = given →
      Reads options st' tokens' (owed ++ us') given') :
    Reads options st (tokens ++ tokens') (us ++ us') given' := by
  obtain ⟨st', done, owed, hreads, hclose, rfl, hgiven⟩ := h
  obtain ⟨st'', done', owed', hreads', hclose', hdone, hgiven'⟩ := h' st' owed hclose hgiven
  refine ⟨st'', done ++ done', owed', fun rest => ?_, hclose', ?_, hgiven'⟩
  · rw [List.append_assoc, hreads, hreads']
    cases usesFrom options st'' rest <;> simp [Except.map]
  · rw [List.append_assoc, hdone, List.append_assoc]

/-- A token that leads to a state of its own, from which the rest is read. -/
theorem Reads.of_step {tokens : List Text} {done us : List Use}
    (hstep : ∀ rest, usesFrom options st (token :: rest) =
      (usesFrom options st' rest).map (done ++ ·))
    (h : Reads options st' tokens us given) :
    Reads options st (token :: tokens) (done ++ us) given := by
  obtain ⟨st'', done', owed, hreads, hclose, rfl, hgiven⟩ := h
  refine ⟨st'', done ++ done', owed, fun rest => ?_, hclose, by simp, hgiven⟩
  rw [List.cons_append, hstep, hreads]
  cases usesFrom options st'' rest <;> simp [Except.map]

/-- Values for the option that waits: it is closed when it has all that it can take, and waits on
with a smaller number if that is enough for it. -/
theorem reads_values {o : CliOption} {vs got : List Text} (hplain : ∀ v ∈ vs, v.head? ≠ some '-')
    (hroom : got.length < o.args) (hcount : o.Takes (got.length + vs.length)) :
    Reads options ⟨some (o, got), given⟩ vs [.occurrence o (got ++ vs)] given := by
  induction vs generalizing got with
  | nil =>
    refine ⟨⟨some (o, got), given⟩, [], _, fun rest => ?_, ?_, rfl, rfl⟩
    · cases h : usesFrom options ⟨some (o, got), given⟩ rest <;> simp [h, Except.map]
    · have haccepts : o.accepts got.length = true := CliOption.accepts_iff.2 (by simpa using hcount)
      simp [Waiting.close, occurrence, haccepts, Except.map]
  | cons v vs ih =>
    obtain ⟨hv, hvs⟩ := List.forall_mem_cons.1 hplain
    have hle := hcount.le
    rw [List.length_cons] at hle
    by_cases hmore : (got ++ [v]).length < o.args
    · have hplainUses : plainUses ⟨some (o, got), given⟩ v =
          ([], ⟨some (o, got ++ [v]), given⟩) := by simp only [plainUses, if_pos hmore]
      have hcount' : o.Takes ((got ++ [v]).length + vs.length) := by
        rw [List.length_append, List.length_singleton, Nat.add_assoc, Nat.add_comm 1]
        exact hcount
      have hrest := ih hvs hmore hcount'
      rw [List.append_assoc] at hrest
      have hstep : ∀ rest, usesFrom options ⟨some (o, got), given⟩ (v :: rest) =
          (usesFrom options ⟨some (o, got ++ [v]), given⟩ rest).map ([] ++ ·) := by
        intro rest
        rw [usesFrom_plain (lexeme_plain hv), hplainUses]
      exact Reads.of_step hstep hrest
    · -- the option is full, so no more values can follow
      have hnone : vs = [] := by
        rw [← List.length_eq_zero_iff]
        simp only [List.length_append, List.length_singleton] at hmore
        omega
      subst hnone
      have hplainUses : plainUses ⟨some (o, got), given⟩ v =
          ([.occurrence o (got ++ [v])], ⟨none, given⟩) := by
        simp only [plainUses, if_neg hmore]
      have hstep : ∀ rest, usesFrom options ⟨some (o, got), given⟩ (v :: rest) =
          (usesFrom options ⟨none, given⟩ rest).map ([.occurrence o (got ++ [v])] ++ ·) := by
        intro rest
        rw [usesFrom_plain (lexeme_plain hv), hplainUses]
      exact Reads.of_step hstep (reads_nil rfl)

end Scan

/-! ## One occurrence -/

section Occurrences

variable {s : OptionSet} {o : CliOption} {st : State} {owed : List Use} {name : Text}

/-- The name of an option without arguments closes what is owed and is an occurrence by itself. -/
theorem usesFrom_flag (ho : o ∈ s.options) (hname : o.Names name) (hargs : o.args = 0)
    (hclose : st.waiting.close = .ok owed) (hgiven : o.short ∉ st.given) (rest : List Text) :
    usesFrom s.options st (name :: rest) =
      (usesFrom s.options ⟨none, o.short :: st.given⟩ rest).map
        (owed ++ [.occurrence o []] ++ ·) := by
  have huse : flagUse st.given o = .ok (.occurrence o []) := by simp [flagUse, hgiven]
  cases hname with
  | short =>
    refine usesFrom_cluster (lexeme_cluster o.short_ne_hyphen []) ?_
    simp [clusterUses, OptionSet.find?_short ho, hargs, hclose, huse, bind, Except.bind, pure,
      Except.pure]
  | long hl =>
    obtain ⟨hne, hequals⟩ := CliOption.long_props hl
    refine usesFrom_long (lexeme_long hne) ?_
    simp [cutAtEquals_self hequals, longUses, OptionSet.find?_long ho hl, hargs, hclose, huse, bind,
      Except.bind, pure, Except.pure]

/-- The name of an option with arguments closes what is owed; the option waits for values then. -/
theorem usesFrom_open (ho : o ∈ s.options) (hname : o.Names name) (hargs : o.args ≠ 0)
    (hclose : st.waiting.close = .ok owed) (rest : List Text) :
    usesFrom s.options st (name :: rest) =
      (usesFrom s.options ⟨some (o, []), st.given⟩ rest).map (owed ++ ·) := by
  cases hname with
  | short =>
    refine usesFrom_cluster (lexeme_cluster o.short_ne_hyphen []) ?_
    simp [clusterUses, OptionSet.find?_short ho, hargs, hclose, bind, Except.bind, pure,
      Except.pure]
  | long hl =>
    obtain ⟨hne, hequals⟩ := CliOption.long_props hl
    obtain ⟨n, hn⟩ := Nat.exists_eq_succ_of_ne_zero hargs
    refine usesFrom_long (lexeme_long hne) ?_
    simp [cutAtEquals_self hequals, longUses, OptionSet.find?_long ho hl, hn, hclose, bind,
      Except.bind, pure, Except.pure]

/-- A name with a value attached closes what is owed and is an occurrence by itself. -/
theorem usesFrom_attached (ho : o ∈ s.options) (hname : o.Names name) (hcount : o.Takes 1)
    (hclose : st.waiting.close = .ok owed) (v : Text) (rest : List Text) :
    usesFrom s.options st ((name ++ '=' :: v) :: rest) =
      (usesFrom s.options ⟨none, st.given⟩ rest).map (owed ++ [.occurrence o [v]] ++ ·) := by
  have hargs : o.args ≠ 0 := Nat.one_le_iff_ne_zero.1 hcount.le
  have huse : occurrence o [v] = .ok (.occurrence o [v]) := if_pos (CliOption.accepts_iff.2 hcount)
  cases hname with
  | short =>
    refine usesFrom_cluster (lexeme_cluster o.short_ne_hyphen _) ?_
    simp [clusterUses, OptionSet.find?_short ho, hargs, hclose, attached, huse, bind, Except.bind,
      pure, Except.pure]
  | @long l hl =>
    obtain ⟨hne, hequals⟩ := CliOption.long_props hl
    obtain ⟨n, hn⟩ := Nat.exists_eq_succ_of_ne_zero hargs
    have hbody : l ++ '=' :: v ≠ [] := by simp
    refine usesFrom_long (lexeme_long hbody) ?_
    simp [cutAtEquals_append hequals, longUses, OptionSet.find?_long ho hl, hn, hclose, huse, bind,
      Except.bind, pure, Except.pure]

/-- The options without arguments that have been given when an occurrence has been read. -/
def givenAfter (given : List Char) (x : Occurrence) : List Char :=
  if x.option.args = 0 then x.option.short :: given else given

theorem reads_occurrence {x : Occurrence} (ho : x.option ∈ s.options) {tokens : List Text}
    (h : x.Written tokens) (hclose : st.waiting.close = .ok owed)
    (hfresh : x.option.args = 0 → x.option.short ∉ st.given) :
    Reads s.options st tokens (owed ++ [.occurrence x.option x.values])
      (givenAfter st.given x) := by
  unfold givenAfter
  cases h with
  | @apart o name vs hname hcount hplain =>
    dsimp only
    split_ifs with hargs
    · have hnone : vs = [] := by
        have hle := hcount.le
        rw [← List.length_eq_zero_iff]
        omega
      subst hnone
      have hstep := usesFrom_flag ho hname hargs hclose (hfresh hargs)
      simpa using Reads.of_step hstep (reads_nil rfl)
    · exact Reads.of_step (usesFrom_open ho hname hargs hclose)
        (reads_values hplain (Nat.pos_of_ne_zero hargs) (by simpa using hcount))
  | @attached o name v hname hcount =>
    have hargs : o.args ≠ 0 := Nat.one_le_iff_ne_zero.1 hcount.le
    rw [if_neg hargs]
    simpa using Reads.of_step (usesFrom_attached ho hname hcount hclose v) (reads_nil rfl)

/-! ## All occurrences -/

def Occurrence.use (x : Occurrence) : Use := .occurrence x.option x.values

/-- Options without arguments may not have been given before, and may occur once only. -/
theorem reads_rendered {xs : List Occurrence} {tokens : List Text} (h : Rendered xs tokens)
    (hdeclared : ∀ x ∈ xs, x.option ∈ s.options)
    (honce : ∀ o ∈ s.options, o.args = 0 → (xs.filter (·.option = o)).length ≤ 1)
    (hfresh : ∀ x ∈ xs, x.option.args = 0 → x.option.short ∉ st.given)
    (hclose : st.waiting.close = .ok owed) :
    Reads s.options st tokens (owed ++ xs.map Occurrence.use) (xs.foldl givenAfter st.given) := by
  induction h generalizing st owed with
  | nil => simpa using reads_nil hclose
  | @cons x xs tokens rest hx hxs ih =>
    obtain ⟨hxdeclared, hdeclared'⟩ := List.forall_mem_cons.1 hdeclared
    obtain ⟨hxfresh, hrestfresh⟩ := List.forall_mem_cons.1 hfresh
    have honce' : ∀ o ∈ s.options, o.args = 0 → (xs.filter (·.option = o)).length ≤ 1 := by
      intro o ho hargs
      have hle := honce o ho hargs
      rw [List.filter_cons] at hle
      split_ifs at hle
      · rw [List.length_cons] at hle
        omega
      · exact hle
    have hfresh' : ∀ y ∈ xs, y.option.args = 0 → y.option.short ∉ givenAfter st.given x := by
      intro y hy hargs hmem
      unfold givenAfter at hmem
      split_ifs at hmem with hxargs
      · rcases List.mem_cons.1 hmem with hshort | hmem
        · -- an option without arguments would occur twice
          have hsame := OptionSet.eq_of_short_eq (hdeclared' y hy) hxdeclared hshort
          have hle := honce x.option hxdeclared hxargs
          have hin : y ∈ xs.filter (·.option = x.option) := by simp [hy, hsame]
          rw [List.filter_cons_of_pos (by simp), List.length_cons] at hle
          have := List.length_pos_of_mem hin
          omega
        · exact hrestfresh y hy hargs hmem
      · exact hrestfresh y hy hargs hmem
    have hread := reads_occurrence hxdeclared hx hclose hxfresh
    have hsplit : owed ++ (x :: xs).map Occurrence.use =
        (owed ++ [.occurrence x.option x.values]) ++ xs.map Occurrence.use := by
      simp [Occurrence.use]
    rw [hsplit]
    refine hread.append fun st' owed' hclose' hgiven' => ?_
    rw [List.foldl_cons, ← hgiven']
    exact ih hdeclared' honce' (by rwa [hgiven']) hclose'

/-- After `--` every token is a positional argument. -/
theorem Reads.uses {tokens : List Text} {us : List Use} {given : List Char}
    (h : Reads s.options ⟨none, []⟩ tokens us given) (args : List Text) :
    uses s.options (tokens ++ "--".toList :: args) = .ok (us ++ args.map .positional) := by
  obtain ⟨st', done, owed, hreads, hclose, rfl, -⟩ := h
  have hend : usesFrom s.options st' ("--".toList :: args) =
      .ok (owed ++ args.map .positional) := by
    show usesFrom s.options st' (['-', '-'] :: args) = _
    simp only [usesFrom, lexeme, hclose, bind, Except.bind]
    rfl
  rw [Options.uses, hreads, hend]
  simp [Except.map]

end Occurrences

/-! ## What a command sees -/

section Collecting

variable {s : OptionSet} {xs : List Occurrence} {args : List Text} {o : CliOption}

/-- The occurrences of an option, in order. -/
def occurrencesOf (o : CliOption) (xs : List Occurrence) : List Occurrence :=
  xs.filter (·.option = o)

/-- The values that a use gives for an option. -/
def Use.valuesFor (o : CliOption) : Use → Option (List Text)
  | .occurrence o' values => if o'.short = o.short then some values else none
  | .positional _ => none

theorem gather_eq (o : CliOption) (us : List Use) :
    gather o us = if us.filterMap (Use.valuesFor o) = [] then none
      else some (us.filterMap (Use.valuesFor o)).flatten := by
  have hvalues : ∀ u, Use.valuesFor o u = match u with
      | .occurrence o' values => if o'.short == o.short then some values else none
      | .positional _ => none := by
    rintro (⟨o', values⟩ | a)
    · simp [Use.valuesFor]
    · rfl
  simp only [hvalues, ← List.isEmpty_iff]
  rfl

theorem filterMap_valuesFor (hdeclared : ∀ x ∈ xs, x.option ∈ s.options) (ho : o ∈ s.options) :
    (xs.map Occurrence.use).filterMap (Use.valuesFor o) =
      (occurrencesOf o xs).map Occurrence.values := by
  induction xs with
  | nil => rfl
  | cons x xs ih =>
    obtain ⟨hx, hxs⟩ := List.forall_mem_cons.1 hdeclared
    have hrest := ih hxs
    have hsame : x.option.short = o.short ↔ x.option = o :=
      ⟨OptionSet.eq_of_short_eq hx ho, congrArg CliOption.short⟩
    unfold occurrencesOf at hrest ⊢
    by_cases hxo : x.option = o
    · simp [Occurrence.use, Use.valuesFor, hxo, hrest]
    · simp [Occurrence.use, Use.valuesFor, hsame, hxo, hrest]

theorem valuesFor_positionals (o : CliOption) (args : List Text) :
    (args.map Use.positional).filterMap (Use.valuesFor o) = [] := by
  rw [List.filterMap_map, List.filterMap_eq_nil_iff]
  exact fun a _ => rfl

theorem gather_uses (hdeclared : ∀ x ∈ xs, x.option ∈ s.options) (ho : o ∈ s.options) :
    gather o (xs.map Occurrence.use ++ args.map .positional) =
      if occurrencesOf o xs = [] then none
      else some ((occurrencesOf o xs).flatMap Occurrence.values) := by
  rw [gather_eq, List.filterMap_append, valuesFor_positionals, List.append_nil,
    filterMap_valuesFor hdeclared ho]
  simp only [List.map_eq_nil_iff, List.flatMap_def]

theorem positionals_uses :
    positionals (xs.map Occurrence.use ++ args.map .positional) = args := by
  unfold positionals
  rw [List.filterMap_append, List.filterMap_map, List.filterMap_map]
  have hnone : ∀ l : List Occurrence, l.filterMap (fun _ => (none : Option Text)) = [] := by
    simp
  exact (congrArg (· ++ _) (hnone xs)).trans List.filterMap_some

theorem positionals_append (us us' : List Use) :
    positionals (us ++ us') = positionals us ++ positionals us' := by
  unfold positionals
  rw [List.filterMap_append]

/-- What occurrences and positional arguments amount to for a command: each option that occurs, with
the values of all its occurrences. It depends on the order of occurrences of the same option only. -/
def summary (s : OptionSet) (xs : List Occurrence) (args : List Text) : ParsedOptions :=
  ⟨s.options.filterMap fun o => if occurrencesOf o xs = [] then none
    else some (o.short, (occurrencesOf o xs).flatMap Occurrence.values), args⟩

theorem collect_uses (hdeclared : ∀ x ∈ xs, x.option ∈ s.options) :
    collect s.options (xs.map Occurrence.use ++ args.map .positional) = summary s xs args := by
  rw [collect, summary, positionals_uses]
  congr 1
  refine List.filterMap_congr fun o ho => ?_
  rw [gather_uses hdeclared ho]
  split_ifs <;> rfl

theorem ascends_given (s : OptionSet) (xs : List Occurrence) (args : List Text) :
    Ascending.Ascends Prod.fst (summary s xs args).given := by
  refine List.pairwise_filterMap.2 (s.ascending.imp fun {a b} hab x hx y hy => ?_)
  split_ifs at hx hy
  cases hx
  cases hy
  exact hab

theorem lookup_summary {c : Char} {values : List Text} :
    (summary s xs args).lookup c = some values ↔ ∃ o ∈ s.options, o.short = c ∧
      occurrencesOf o xs ≠ [] ∧ (occurrencesOf o xs).flatMap Occurrence.values = values := by
  unfold ParsedOptions.lookup
  simp only [Option.map_eq_some_iff, Ascending.find?_eq_some_iff (ascends_given s xs args)]
  constructor
  · rintro ⟨⟨short, values⟩, ⟨hmem, heq⟩, rfl⟩
    obtain ⟨o, ho, hsome⟩ := List.mem_filterMap.1 hmem
    split_ifs at hsome with hne
    cases hsome
    exact ⟨o, ho, Std.LawfulEqCmp.eq_of_compare heq, hne, rfl⟩
  · rintro ⟨o, ho, rfl, hne, rfl⟩
    exact ⟨_, ⟨List.mem_filterMap.2 ⟨o, ho, if_neg hne⟩, Std.ReflCmp.compare_self⟩, rfl⟩

theorem occurrencesOf_ne_nil : occurrencesOf o xs ≠ [] ↔ ∃ x ∈ xs, x.option = o := by
  simp [occurrencesOf]

theorem has_summary (hdeclared : ∀ x ∈ xs, x.option ∈ s.options) {c : Char} :
    (summary s xs args).has c = true ↔ ∃ x ∈ xs, x.option.short = c := by
  unfold ParsedOptions.has
  rw [Option.isSome_iff_exists]
  simp only [lookup_summary, occurrencesOf_ne_nil]
  constructor
  · rintro ⟨-, o, -, rfl, ⟨x, hx, rfl⟩, -⟩
    exact ⟨x, hx, rfl⟩
  · rintro ⟨x, hx, rfl⟩
    exact ⟨_, x.option, hdeclared x hx, rfl, ⟨x, hx, rfl⟩, rfl⟩

theorem values_summary (ho : o ∈ s.options) :
    (summary s xs args).values o.short = (occurrencesOf o xs).flatMap Occurrence.values := by
  unfold ParsedOptions.values
  cases hlookup : (summary s xs args).lookup o.short with
  | none =>
    have hnone : occurrencesOf o xs = [] := by
      by_contra hne
      have hsome : (summary s xs args).lookup o.short =
          some ((occurrencesOf o xs).flatMap Occurrence.values) :=
        lookup_summary.2 ⟨o, ho, rfl, hne, rfl⟩
      rw [hlookup] at hsome
      cases hsome
    simp [hnone]
  | some values =>
    obtain ⟨o', ho', hshort, -, rfl⟩ := lookup_summary.1 hlookup
    rw [OptionSet.eq_of_short_eq ho' ho hshort]
    rfl

end Collecting

/-! ## Reading what was written -/

section Parsing

variable {s : OptionSet} {xs ys : List Occurrence} {tokens : List Text}

theorem missing_eq_nil_iff {options : List CliOption} {p : ParsedOptions} :
    missing options p = [] ↔ ∀ o ∈ options, o.required = true → p.has o.short = true := by
  simp [missing]

theorem parse_eq_summary (h : Admitted s xs) (ht : Rendered xs tokens) (args : List Text) :
    s.parse (tokens ++ "--".toList :: args) = .ok (summary s xs args) := by
  have hread : Reads s.options ⟨none, []⟩ tokens (xs.map Occurrence.use)
      (xs.foldl givenAfter []) := by
    have hclose : (State.mk none []).waiting.close = .ok [] := rfl
    simpa using reads_rendered ht h.declared h.once (by simp) hclose
  have hmissing : missing s.options (summary s xs args) = [] := by
    refine missing_eq_nil_iff.2 fun o ho hrequired => ?_
    obtain ⟨x, hx, rfl⟩ := h.required o ho hrequired
    exact (has_summary h.declared).2 ⟨x, hx, rfl⟩
  show parseWith s.options (tokens ++ "--".toList :: args) = _
  simp only [parseWith, hread.uses args, collect_uses h.declared, hmissing, bind, Except.bind]
  rfl

theorem Admitted.of_same (h : Admitted s xs)
    (hsame : ∀ o, occurrencesOf o ys = occurrencesOf o xs) : Admitted s ys := by
  have hmem : ∀ x, x ∈ ys ↔ x ∈ xs := by
    intro x
    have hx : x ∈ occurrencesOf x.option ys ↔ x ∈ occurrencesOf x.option xs := by rw [hsame]
    simpa [occurrencesOf] using hx
  refine ⟨fun x hx => h.declared x ((hmem x).1 hx), fun o ho hrequired => ?_, fun o ho hargs => ?_⟩
  · obtain ⟨x, hx, hxo⟩ := h.required o ho hrequired
    exact ⟨x, (hmem x).2 hx, hxo⟩
  · have hle := h.once o ho hargs
    have hso := hsame o
    unfold occurrencesOf at hso
    rwa [hso]

/-- What a command sees of options that were written in some way, with `--` and the positional
arguments behind them. -/
structure Presents (p : ParsedOptions) (s : OptionSet) (xs : List Occurrence) (args : List Text) :
    Prop where
  /-- Exactly the options that occur have been given. -/
  has_iff : ∀ c, p.has c = true ↔ ∃ x ∈ xs, x.option.short = c
  /-- The values of an option are those of its occurrences, one after another. -/
  values_eq : ∀ o ∈ s.options,
    p.values o.short = (xs.filter (·.option = o)).flatMap Occurrence.values
  args_eq : p.args = args

/-- Occurrences of options that are admitted, written in any spelling, are read as what they are;
and only the order among occurrences of the same option matters. -/
theorem parse_rendered (h : Admitted s xs) (ht : Rendered xs tokens) (args : List Text) :
    ∃ p, s.parse (tokens ++ "--".toList :: args) = .ok p ∧ Presents p s xs args ∧
      ∀ ys tokens', (∀ o, ys.filter (·.option = o) = xs.filter (·.option = o)) →
        Rendered ys tokens' → s.parse (tokens' ++ "--".toList :: args) = .ok p := by
  refine ⟨summary s xs args, parse_eq_summary h ht args, ⟨fun c => has_summary h.declared,
    fun o ho => values_summary ho, rfl⟩, fun ys tokens' hsame ht' => ?_⟩
  have hoccurrences : ∀ o, occurrencesOf o ys = occurrencesOf o xs := hsame
  have hsummary : summary s ys args = summary s xs args := by
    simp only [summary, hoccurrences]
  rw [← hsummary]
  exact parse_eq_summary (h.of_same hsame) ht' args

/-- An option that takes up to two values. -/
def pairOption : CliOption :=
  ⟨'p', some "pair", none, 2, false, true, [], by decide, by decide, by decide⟩

/-- An option that has to be given, with one value. -/
def requiredOption : CliOption :=
  ⟨'r', some "required", none, 1, true, false, [], by decide, by decide, by decide⟩

/-- An option without arguments. -/
def flagOption : CliOption :=
  ⟨'v', some "verbose", none, 0, false, false, [], by decide, by decide, by decide⟩

/-- The set of these three. -/
def mixedOptions : OptionSet :=
  ⟨[pairOption, requiredOption, flagOption], by simp, by decide, by
    simp [pairOption, requiredOption, flagOption]⟩

/-- Occurrences of them in a mixed order. -/
def mixedOccurrences : List Occurrence :=
  [⟨pairOption, []⟩, ⟨flagOption, []⟩, ⟨requiredOption, ["-=x"]⟩, ⟨pairOption, ["1"]⟩,
    ⟨requiredOption, [[]]⟩]

/-- One way to write these. -/
def mixedTokens : List Text := ["--pair", "-v", "--required=-=x", "-p", "1", "-r", []]

/-- An option that may take more values is closed by the next name, and an attached value may begin
with a hyphen and hold equals signs. -/
theorem parse_rendered_mixed :
    Admitted mixedOptions mixedOccurrences ∧ Rendered mixedOccurrences mixedTokens ∧
      ∃ p, mixedOptions.parse (mixedTokens ++ "--".toList :: ["-v"]) = .ok p ∧
        p.values 'p' = ["1"] ∧ p.values 'r' = [("-=x" : Text), []] ∧ p.has 'v' = true ∧
        p.args = ["-v"] := by
  have hpair : pairOption ∈ mixedOptions.options := List.mem_cons_self
  have hrequired : requiredOption ∈ mixedOptions.options :=
    List.mem_cons_of_mem _ List.mem_cons_self
  have hadmitted : Admitted mixedOptions mixedOccurrences := ⟨by decide, by decide, by decide⟩
  have hattached : Occurrence.Written ⟨requiredOption, ["-=x"]⟩ ["--required=-=x"] :=
    @Occurrence.Written.attached requiredOption "--required" "-=x" (.long rfl)
      (CliOption.accepts_iff.1 rfl)
  have hrendered : Rendered mixedOccurrences mixedTokens :=
    .cons (.apart (.long rfl) (CliOption.accepts_iff.1 rfl) (by simp)) <|
      .cons (.apart .short (CliOption.accepts_iff.1 rfl) (by simp)) <| .cons hattached <|
      .cons (.apart .short (CliOption.accepts_iff.1 rfl) (by decide)) <|
      .cons (.apart .short (CliOption.accepts_iff.1 rfl) (by decide)) .nil
  obtain ⟨p, hp, hpresents, -⟩ := parse_rendered hadmitted hrendered ["-v"]
  refine ⟨hadmitted, hrendered, p, hp, ?_, ?_, ?_, hpresents.args_eq⟩
  · exact (hpresents.values_eq pairOption hpair).trans (by decide)
  · exact (hpresents.values_eq requiredOption hrequired).trans (by decide)
  · exact (hpresents.has_iff 'v').2 ⟨⟨flagOption, []⟩, by decide, rfl⟩

end Parsing

end Options

end ClusterConsole
