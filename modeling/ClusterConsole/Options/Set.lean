/-
The options of one command: a non-empty set whose short names, and whose long names, differ, listed
in ascending order of the short names. `OptionSet.ofList` builds it and names the first conflict.
-/
import ClusterConsole.Ascending
import ClusterConsole.Options.Definition

namespace ClusterConsole

/-! ## The order of options -/

namespace CliOption

instance : Std.TransOrd CliOption :=
  inferInstanceAs (Std.TransCmp (compareLex (compareOn short) (compareLex (compareOn long)
    (compareLex (compareOn argName) (compareLex (compareOn args) (compareLex (compareOn required)
      (compareLex (compareOn optionalArg) (compareOn description))))))))

/-- Options in ascending order have short names in ascending order, unless they share theirs. -/
theorem short_lt_of_lt {a b : CliOption} (h : compare a b = .lt) (hne : a.short ≠ b.short) :
    compare a.short b.short = .lt := by
  have hs : compare a b = (compare a.short b.short).then _ := rfl
  cases hc : compare a.short b.short with
  | lt => rfl
  | eq => exact absurd (Std.LawfulEqCmp.eq_of_compare hc) hne
  | gt => rw [hs, hc] at h; cases h

/-- The name of the first option that shares its short or its long name with one before it. -/
def firstConflict (before : List CliOption) : List CliOption → Option Text
  | [] => none
  | o :: os =>
    if before.any (·.short == o.short) then some ['-', o.short]
    else match o.long with
      | some l =>
        if before.any (·.long == some l) then some ("--" ++ l) else firstConflict (before ++ [o]) os
      | none => firstConflict (before ++ [o]) os

/-- Whether neither the short nor the long name is shared. -/
def Distinct (a b : CliOption) : Prop := a.short ≠ b.short ∧ ∀ l, a.long = some l → b.long ≠ some l

theorem distinct_of_firstConflict {before os : List CliOption}
    (h : firstConflict before os = none) :
    os.Pairwise Distinct ∧ ∀ a ∈ before, ∀ b ∈ os, Distinct a b := by
  induction os generalizing before with
  | nil => simp
  | cons o os ih =>
    unfold firstConflict at h
    split at h
    · cases h
    · rename_i hshort
      have hshort' : ∀ a ∈ before, a.short ≠ o.short := by simpa using hshort
      have key : firstConflict (before ++ [o]) os = none ∧
          ∀ a ∈ before, ∀ l, a.long = some l → o.long ≠ some l := by
        split at h
        · rename_i l hl
          split at h
          · cases h
          · rename_i hlong
            refine ⟨h, fun a ha m hm => ?_⟩
            have : ∀ a ∈ before, ¬ a.long = some l := by simpa using hlong
            rw [hl]
            intro he
            exact this a ha (by rw [hm, ← he])
        · rename_i hl
          exact ⟨h, fun a _ m _ => by rw [hl]; simp⟩
      obtain ⟨hpair, hbefore⟩ := ih key.1
      refine ⟨List.pairwise_cons.mpr ⟨fun b hb => hbefore o (by simp) b hb, hpair⟩, ?_⟩
      intro a ha b hb
      rcases List.mem_cons.mp hb with rfl | hb
      · exact ⟨hshort' a ha, key.2 a ha⟩
      · exact hbefore a (by simp [ha]) b hb

end CliOption

/-! ## Sets -/

/-- The options of a command, in ascending order of their short names. -/
structure OptionSet where
  options : List CliOption
  ne_nil : options ≠ []
  ascending : options.Pairwise fun a b => compare a.short b.short = .lt
  longs : options.Pairwise fun a b => ∀ l, a.long = some l → b.long ≠ some l
deriving DecidableEq

namespace OptionSet

/-- The set of the given options; the same option may be given more than once. -/
def ofList (options : List CliOption) : Except OptionError OptionSet :=
  let ordered := Ascending.ofList id options
  if hne : ordered = [] then .error .emptySet
  else match h : CliOption.firstConflict [] ordered with
    | some name => .error (.conflict name)
    | none =>
      have distinct := (CliOption.distinct_of_firstConflict h).1
      have sorted := Ascending.pairwise_ofList id options
      .ok ⟨ordered, hne,
        (sorted.and distinct).imp fun h => CliOption.short_lt_of_lt h.1 h.2.1,
        distinct.imp fun h => h.2⟩

/-- The names under which what is read against the set is filed: the short names in order, and one
for positional arguments. -/
def argumentIds (s : OptionSet) : List Text :=
  s.options.map (fun o => [o.short]) ++ ["ARGS".toList]

/-- The number of options. -/
def size (s : OptionSet) : Nat := s.options.length

end OptionSet

/-! ## Arguments -/

/-- An argument as it is declared to the reader of tokens. -/
structure Argument where
  /-- The name under which it is filed. -/
  id : Text
  short : Option Char := none
  long : Option Text := none
  /-- Whether it may be given several times. -/
  repeats : Bool
  /-- How many values one occurrence has at least. -/
  least : Nat
  /-- How many values one occurrence has at most, if there is a limit. -/
  most : Option Nat
  valueName : Option Text := none
  help : Option Text := none
deriving DecidableEq

/-- The argument of an option. It never has to be given: what is missing is told all at once, when
everything else has been read. -/
def CliOption.argument (o : CliOption) : Argument where
  id := [o.short]
  short := some o.short
  long := o.long
  repeats := o.args != 0
  least := if o.optionalArg then 0 else o.args
  most := some o.args
  valueName := if o.args = 0 then none else some o.placeholder
  help := some o.description

/-- The argument that takes whatever belongs to no option. -/
def Argument.positional : Argument where
  id := "ARGS"
  repeats := true
  least := 0
  most := none
  valueName := some "ARGS"

/-- The arguments of a command with the options of a set. -/
def OptionSet.arguments (s : OptionSet) : List Argument :=
  s.options.map CliOption.argument ++ [Argument.positional]

end ClusterConsole
