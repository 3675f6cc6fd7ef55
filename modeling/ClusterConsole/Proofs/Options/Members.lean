/-
A set of options depends only on which options it is made of (`makes_set`): neither their order nor
how often one is given matters, for the set and for the error alike. It is made unless two different
options share a name, and each of its options has one argument, in the order of the short names.

The order of options is a linear one, so that putting options in order tells equal options from
different ones (`compare_eq_iff`), and the conflict that is named is found by a scan of the ordered
options, whichever way these were given (`firstConflict_eq_some`).
-/
import ClusterConsole.Proofs.Ascending
import ClusterConsole.Options.Set

namespace ClusterConsole

namespace CliOption

variable {before os : List CliOption} {name : Text}

theorem compare_eq_iff {a b : CliOption} : compare a b = .eq ↔ a = b := by
  constructor
  · intro h
    have hfields : compare a b = (compare a.short b.short).then ((compare a.long b.long).then
        ((compare a.argName b.argName).then ((compare a.args b.args).then
          ((compare a.required b.required).then ((compare a.optionalArg b.optionalArg).then
            (compare a.description b.description)))))) := rfl
    rw [hfields] at h
    simp only [Ordering.then_eq_eq, Std.compare_eq_iff_eq] at h
    obtain ⟨h1, h2, h3, h4, h5, h6, h7⟩ := h
    cases a
    cases b
    simp_all
  · rintro rfl
    exact Std.compare_self

theorem ne_of_lt {a b : CliOption} (h : compare a b = .lt) : a ≠ b := by
  rintro rfl
  rw [Std.compare_self] at h
  cases h

/-! ## Conflicts -/

theorem Distinct.symm {a b : CliOption} (h : Distinct a b) : Distinct b a :=
  ⟨h.1.symm, fun l hb ha => h.2 l ha hb⟩

theorem firstConflict_eq_none_iff : firstConflict before os = none ↔
    os.Pairwise Distinct ∧ ∀ a ∈ before, ∀ b ∈ os, Distinct a b := by
  refine ⟨distinct_of_firstConflict, ?_⟩
  induction os generalizing before with
  | nil => exact fun _ => rfl
  | cons o os ih =>
    rintro ⟨hpair, hbefore⟩
    obtain ⟨ho, hpair⟩ := List.pairwise_cons.1 hpair
    have hnext : firstConflict (before ++ [o]) os = none := by
      refine ih ⟨hpair, fun a ha b hb => ?_⟩
      rcases List.mem_append.1 ha with ha | ha
      · exact hbefore a ha b (List.mem_cons_of_mem _ hb)
      · rw [List.mem_singleton.1 ha]
        exact ho b hb
    have hshort : before.any (·.short == o.short) = false := by
      simpa using fun a ha => (hbefore a ha o List.mem_cons_self).1
    rw [firstConflict, hshort, if_neg (by decide)]
    cases hl : o.long with
    | none => exact hnext
    | some l =>
      have hlong : before.any (·.long == some l) = false := by
        simpa using fun a ha hal => (hbefore a ha o List.mem_cons_self).2 l hal hl
      simp only
      rw [hlong, if_neg (by decide)]
      exact hnext

/-- The two options share the name, which is written as on the command line. -/
def Shares (name : Text) (a b : CliOption) : Prop :=
  a.short = b.short ∧ name = ['-', b.short] ∨
    ∃ l, a.long = some l ∧ b.long = some l ∧ name = "--" ++ l

theorem firstConflict_eq_some (h : firstConflict before os = some name) :
    ∃ earlier b later, os = earlier ++ b :: later ∧ ∃ a ∈ before ++ earlier, Shares name a b := by
  induction os generalizing before with
  | nil => cases h
  | cons o os ih =>
    have hlater : firstConflict (before ++ [o]) os = some name →
        ∃ earlier b later, o :: os = earlier ++ b :: later ∧
          ∃ a ∈ before ++ earlier, Shares name a b := by
      intro h
      obtain ⟨earlier, b, later, rfl, a, ha, hshares⟩ := ih h
      exact ⟨o :: earlier, b, later, rfl, a, by simpa using ha, hshares⟩
    unfold firstConflict at h
    split at h
    · rename_i hshort
      obtain ⟨a, ha, hao⟩ := List.any_eq_true.1 hshort
      cases h
      exact ⟨[], o, os, rfl, a, by simpa using ha, Or.inl ⟨by simpa using hao, rfl⟩⟩
    · split at h
      · rename_i l hl
        split at h
        · rename_i hlong
          obtain ⟨a, ha, hal⟩ := List.any_eq_true.1 hlong
          cases h
          exact ⟨[], o, os, rfl, a, by simpa using ha, Or.inr ⟨l, by simpa using hal, hl, rfl⟩⟩
        · exact hlater h
      · exact hlater h

end CliOption

namespace OptionSet

open CliOption (Distinct Shares firstConflict)

variable {s : OptionSet} {l l' : List CliOption} {o : CliOption}

/-! ## Making sets -/

/-- The options of a list in order, each of them once. -/
def ordered (l : List CliOption) : List CliOption := Ascending.ofList id l

theorem mem_ordered : o ∈ ordered l ↔ o ∈ l :=
  Ascending.mem_ofList_iff.trans
    (Ascending.isLast_iff_mem fun _ _ _ _ h => CliOption.compare_eq_iff.1 h)

theorem ordered_eq_of_mem (h : ∀ o, o ∈ l' ↔ o ∈ l) : ordered l' = ordered l :=
  Ascending.ofList_eq_of_mem (fun _ _ _ _ heq => CliOption.compare_eq_iff.1 heq) h

theorem ordered_eq_nil_iff : ordered l = [] ↔ l = [] := by
  simp only [List.eq_nil_iff_forall_not_mem, mem_ordered]

theorem pairwise_distinct (s : OptionSet) : s.options.Pairwise Distinct := by
  refine (s.ascending.and s.longs).imp fun {a b} h => ⟨fun heq => ?_, h.2⟩
  have hlt := h.1
  rw [heq, Std.compare_self] at hlt
  cases hlt

theorem eq_of_options_eq {t : OptionSet} (h : s.options = t.options) : s = t := by
  cases s
  cases t
  cases h
  rfl

theorem firstConflict_options (s : OptionSet) : firstConflict [] s.options = none :=
  CliOption.firstConflict_eq_none_iff.2 ⟨s.pairwise_distinct, by simp⟩

theorem ofList_eq_ok_iff : ofList l = .ok s ↔ s.options = ordered l := by
  constructor
  · intro h
    unfold ofList at h
    dsimp only at h
    split at h
    · cases h
    · split at h
      · cases h
      · cases h
        rfl
  · intro h
    have hne : Ascending.ofList id l ≠ [] := by
      rw [← ordered, ← h]
      exact s.ne_nil
    unfold ofList
    dsimp only
    rw [dif_neg hne]
    split
    · rename_i name hname
      rw [← ordered, ← h, s.firstConflict_options] at hname
      cases hname
    · exact congrArg Except.ok (eq_of_options_eq h.symm)

theorem ofList_eq_error_iff {e : OptionError} : ofList l = .error e ↔
    ordered l = [] ∧ e = .emptySet ∨ ∃ name, firstConflict [] (ordered l) = some name ∧
      e = .conflict name := by
  have hcause : ∀ {e}, ofList l = .error e → ordered l = [] ∧ e = .emptySet ∨
      ∃ name, firstConflict [] (ordered l) = some name ∧ e = .conflict name := by
    intro e h
    unfold ofList at h
    dsimp only at h
    split at h
    · rename_i hnil
      cases h
      exact Or.inl ⟨hnil, rfl⟩
    · split at h
      · rename_i name hname
        cases h
        exact Or.inr ⟨name, hname, rfl⟩
      · cases h
  refine ⟨hcause, fun h => ?_⟩
  cases hmade : ofList l with
  | ok s =>
    -- the options of a set are some, and no two of them are in conflict
    have hoptions := ofList_eq_ok_iff.1 hmade
    rw [← hoptions] at h
    rcases h with ⟨hnil, -⟩ | ⟨name, hname, -⟩
    · exact absurd hnil s.ne_nil
    · rw [s.firstConflict_options] at hname
      cases hname
  | error e' =>
    rcases h with ⟨hnil, rfl⟩ | ⟨name, hname, rfl⟩ <;>
      rcases hcause hmade with ⟨hnil', rfl⟩ | ⟨name', hname', rfl⟩
    · rfl
    · rw [hnil] at hname'
      cases hname'
    · rw [hnil'] at hname
      cases hname
    · rw [hname] at hname'
      cases hname'
      rfl

theorem ofList_congr (h : ordered l' = ordered l) : ofList l' = ofList l := by
  cases hmade : ofList l with
  | ok s => rw [ofList_eq_ok_iff, h, ofList_eq_ok_iff.1 hmade]
  | error e =>
    rw [ofList_eq_error_iff, h]
    exact ofList_eq_error_iff.1 hmade

/-- There is a set of the options unless there are none or two of them share a name. -/
theorem exists_ofList_iff : (∃ s, ofList l = .ok s) ↔
    l ≠ [] ∧ ∀ a ∈ l, ∀ b ∈ l, a ≠ b → Distinct a b := by
  constructor
  · rintro ⟨s, hs⟩
    have hoptions := ofList_eq_ok_iff.1 hs
    refine ⟨fun hnil => s.ne_nil ?_, fun a ha b hb hne => ?_⟩
    · rw [hoptions, ordered_eq_nil_iff, hnil]
    · have hsymm : Std.Symm Distinct := ⟨fun _ _ => CliOption.Distinct.symm⟩
      rw [← mem_ordered, ← hoptions] at ha hb
      exact s.pairwise_distinct.forall ha hb hne
  · rintro ⟨hne, hdistinct⟩
    cases hmade : ofList l with
    | ok s => exact ⟨s, rfl⟩
    | error e =>
      exfalso
      rcases ofList_eq_error_iff.1 hmade with ⟨hnil, -⟩ | ⟨name, hname, -⟩
      · exact hne (ordered_eq_nil_iff.1 hnil)
      · have hpair : (ordered l).Pairwise Distinct := by
          have hsorted : Ascending.Ascends id (ordered l) := Ascending.pairwise_ofList id l
          refine hsorted.imp_of_mem fun {a b} ha hb hlt => ?_
          exact hdistinct a (mem_ordered.1 ha) b (mem_ordered.1 hb) (CliOption.ne_of_lt hlt)
        rw [CliOption.firstConflict_eq_none_iff.2 ⟨hpair, by simp⟩] at hname
        cases hname

/-- The name in the error is one that two different options share. -/
theorem exists_of_ofList_eq_error {e : OptionError} (h : ofList l = .error e) :
    l = [] ∧ e = .emptySet ∨
      ∃ a ∈ l, ∃ b ∈ l, a ≠ b ∧ ∃ name, Shares name a b ∧ e = .conflict name := by
  rcases ofList_eq_error_iff.1 h with ⟨hnil, rfl⟩ | ⟨name, hname, rfl⟩
  · exact Or.inl ⟨ordered_eq_nil_iff.1 hnil, rfl⟩
  · right
    have hsorted : Ascending.Ascends id (ordered l) := Ascending.pairwise_ofList id l
    obtain ⟨earlier, b, later, hl, a, ha, hshares⟩ := CliOption.firstConflict_eq_some hname
    rw [List.nil_append] at ha
    have hlt : compare a b = .lt := by
      rw [hl, Ascending.Ascends, List.pairwise_append] at hsorted
      exact hsorted.2.2 a ha b List.mem_cons_self
    refine ⟨a, mem_ordered.1 ?_, b, mem_ordered.1 ?_, CliOption.ne_of_lt hlt, name, hshares, rfl⟩
    · rw [hl]
      exact List.mem_append_left _ ha
    · rw [hl]
      simp

/-! ## Arguments -/

/-- The argument is that of the option: it goes by the same names, and takes as many values. -/
structure Declares (o : CliOption) (a : Argument) : Prop where
  id : a.id = [o.short]
  short : a.short = some o.short
  long : a.long = o.long
  takes : ∀ n, o.accepts n = true ↔ a.least ≤ n ∧ ∀ m ∈ a.most, n ≤ m

theorem declares_argument (o : CliOption) : Declares o o.argument := by
  refine ⟨rfl, rfl, rfl, fun n => ?_⟩
  unfold CliOption.accepts CliOption.argument
  cases o.optionalArg
  · simp
    omega
  · simp
    omega

theorem ids_arguments (s : OptionSet) : s.arguments.map Argument.id = s.argumentIds := by
  simp [arguments, argumentIds, CliOption.argument, Argument.positional]

theorem ascending_shorts (s : OptionSet) : s.options.Pairwise fun a b => a.short < b.short :=
  s.ascending.imp compareOfLessAndEq_eq_lt.1

/-- No two arguments go by one name. -/
theorem nodup_arguments (s : OptionSet) : (s.arguments.map Argument.id).Nodup ∧
    (s.arguments.filterMap Argument.short).Nodup ∧ (s.arguments.filterMap Argument.long).Nodup := by
  have hshorts : (s.options.map CliOption.short).Nodup :=
    List.pairwise_map.2 (s.ascending_shorts.imp Char.ne_of_lt)
  refine ⟨?_, ?_, ?_⟩
  · have hids : s.arguments.map Argument.id =
        (s.options.map CliOption.short).map (fun c => [c]) ++ ["ARGS".toList] := by
      rw [ids_arguments, List.map_map]
      rfl
    rw [hids, List.nodup_append]
    refine ⟨hshorts.map fun c d h => List.singleton_injective h, List.nodup_singleton _, ?_⟩
    -- the name of an option is a single character
    rintro id hid positional hpositional rfl
    obtain ⟨c, -, rfl⟩ := List.mem_map.1 hid
    have hlength := congrArg List.length (List.mem_singleton.1 hpositional)
    simp at hlength
  · have heq : s.arguments.filterMap Argument.short = s.options.map CliOption.short := by
      rw [arguments, List.filterMap_append, List.filterMap_map, ← List.filterMap_eq_map]
      exact List.append_nil _
    rwa [heq]
  · have heq : s.arguments.filterMap Argument.long = s.options.filterMap CliOption.long := by
      rw [arguments, List.filterMap_append, List.filterMap_map]
      exact List.append_nil _
    rw [heq, List.Nodup, List.pairwise_filterMap]
    refine List.Pairwise.imp ?_ s.longs
    rintro a b h l hl l' hl' rfl
    exact h l hl hl'

/-- What the options of a list make. -/
structure MakesSet (l : List CliOption) : Prop where
  /-- They make a set unless there are none or two different ones share a name. -/
  ok_iff : (∃ s, ofList l = .ok s) ↔ l ≠ [] ∧ ∀ a ∈ l, ∀ b ∈ l, a ≠ b →
    a.short ≠ b.short ∧ ∀ name, a.long = some name → b.long ≠ some name
  /-- Their order does not matter, nor how often one is given: the set is the same, or the error. -/
  same : ∀ l', (∀ o, o ∈ l' ↔ o ∈ l) → ofList l' = ofList l
  /-- The error names what two different options share, unless there are none. -/
  error : ∀ e, ofList l = .error e → l = [] ∧ e = .emptySet ∨
    ∃ a ∈ l, ∃ b ∈ l, a ≠ b ∧ ∃ name, Shares name a b ∧ e = .conflict name
  /-- The set has the given options, in strictly ascending order of the short names. -/
  options : ∀ s, ofList l = .ok s → (∀ o, o ∈ s.options ↔ o ∈ l) ∧
    s.options.Pairwise fun a b => a.short < b.short
  /-- Each of them has one argument, in the same order, and the positional one comes last. -/
  arguments : ∀ s, ofList l = .ok s → ∃ declared, List.Forall₂ Declares s.options declared ∧
    s.arguments = declared ++ [.positional] ∧ s.arguments.map Argument.id = s.argumentIds
  /-- No two arguments go by one name. -/
  names : ∀ s, ofList l = .ok s → (s.arguments.map Argument.id).Nodup ∧
    (s.arguments.filterMap Argument.short).Nodup ∧ (s.arguments.filterMap Argument.long).Nodup

theorem makes_set (l : List CliOption) : MakesSet l where
  ok_iff := exists_ofList_iff
  same _ h := ofList_congr (ordered_eq_of_mem h)
  error _ h := exists_of_ofList_eq_error h
  options s h := by
    refine ⟨fun o => ?_, s.ascending_shorts⟩
    rw [ofList_eq_ok_iff.1 h]
    exact mem_ordered
  arguments s _ := by
    refine ⟨s.options.map CliOption.argument, ?_, rfl, s.ids_arguments⟩
    rw [List.forall₂_map_right_iff]
    exact List.forall₂_same.2 fun o _ => declares_argument o
  names s _ := s.nodup_arguments

end OptionSet

end ClusterConsole
