/-
What installing handlers by name comes to (`installs`). The names are looked up before any handler
is started, so an unknown one leaves everything as it was. That the record service is missing shows
only when the turn of the handler that needs it comes, and the handlers named before it stay
(`start_eq`): installing is all or nothing except for lists that name another handler first.
-/
import ClusterConsole.Console
import ClusterConsole.Proofs.Except

namespace ClusterConsole

namespace Handler

variable {c : Config} {hasService : Bool} {running hs : List Handler} {names : List Text}

/-! ## Names -/

/-- The name of the handler that needs the record service. -/
def databaseName : Text := "database"

/-- The names that are looked up: blanks around them are set aside. -/
def askedFor (names : List Text) : List Text := names.map Text.trim

theorem eq_of_named? {n : Text} {h : Handler} (hn : named? c n = some h) :
    h.name = n ∧ (h.needsService = true ↔ n = databaseName) := by
  unfold named? at hn
  split_ifs at hn with h1 h2 h3 h4 h5 <;>
    (cases hn; subst n; exact ⟨rfl, by simp only [needsService]; decide⟩)

theorem exists_named?_iff (n : Text) : (∃ h, named? c n = some h) ↔ n ∈ handlerNames := by
  have hmem : n ∈ handlerNames ↔ n = "help".toList ∨ n = "exit".toList ∨ n = "config".toList ∨
      n = "cluster".toList ∨ n = "database".toList := by
    rw [handlerNames, List.mem_cons, List.mem_cons, List.mem_cons, List.mem_cons,
      List.mem_singleton]
  rw [hmem]
  unfold named?
  split_ifs <;> simp_all

theorem ofName_eq_ok_iff {n : Text} {h : Handler} :
    ofName c n = .ok h ↔ named? c n.trim = some h := by
  unfold ofName
  cases named? c n.trim <;> simp

theorem ofName_eq_error_iff {n : Text} {e : ConsoleError} :
    ofName c n = .error e ↔ n.trim ∉ handlerNames ∧ e = .unknownHandler n.trim := by
  rw [← exists_named?_iff (c := c)]
  unfold ofName
  cases named? c n.trim <;> simp [eq_comm]

/-! ## Starting -/

section Starting

variable {ns : List Text}

theorem map_name_eq (hnamed : List.Forall₂ (fun n a => named? c n = some a) ns hs) :
    hs.map name = ns := by
  induction hnamed with
  | nil => rfl
  | cons hn _ ih => rw [List.map_cons, ih, (eq_of_named? hn).1]

/-- With the record service, or if none needs it, all handlers are started. -/
theorem start_of_supplied (hnamed : List.Forall₂ (fun n a => named? c n = some a) ns hs)
    (h : databaseName ∈ ns → hasService = true) :
    start hasService running hs = (running ++ hs, .ok ()) := by
  induction hnamed generalizing running with
  | nil => rw [start, List.append_nil]
  | @cons n a ns hs hn _ ih =>
    have hready : ¬ (a.needsService && !hasService) = true := by
      intro hlacks
      rw [Bool.and_eq_true, (eq_of_named? hn).2] at hlacks
      rw [h (by rw [hlacks.1]; exact List.mem_cons_self)] at hlacks
      exact absurd hlacks.2 (by decide)
    rw [start, if_neg hready, ih fun hmem => h (List.mem_cons_of_mem _ hmem), List.append_assoc,
      List.singleton_append]

/-- Without it, those named before the one that needs it are. -/
theorem start_of_missing (running : List Handler)
    (hnamed : List.Forall₂ (fun n a => named? c n = some a) ns hs) (h : databaseName ∈ ns) :
    ∃ started, start false running hs = (running ++ started, .error (.config .noPersistence)) ∧
      started.map name = ns.takeWhile (· ≠ databaseName) := by
  induction hnamed generalizing running with
  | nil => cases h
  | @cons n a ns hs hn _ ih =>
    obtain ⟨hname, hneeds⟩ := eq_of_named? hn
    rw [start, List.takeWhile_cons]
    by_cases hdatabase : n = databaseName
    · refine ⟨[], ?_, by simp [hdatabase]⟩
      rw [hneeds.2 hdatabase, List.append_nil]
      rfl
    · have hready : a.needsService = false := by
        rw [← Bool.not_eq_true, hneeds]
        exact hdatabase
      have hrest : databaseName ∈ ns := by
        rcases List.mem_cons.1 h with rfl | hrest
        · exact absurd rfl hdatabase
        · exact hrest
      obtain ⟨started, hstart, hnames⟩ := ih (running ++ [a]) hrest
      refine ⟨a :: started, ?_, ?_⟩
      · rw [hready, hstart, List.append_assoc]
        rfl
      · rw [List.map_cons, hname, hnames]
        simp [hdatabase]

end Starting

/-! ## Installing -/

/-- Every name is the name of a handler. -/
def Known (names : List Text) : Prop := ∀ n ∈ askedFor names, n ∈ handlerNames

/-- The record service is missing, and another handler is named before the one that needs it. -/
def Interrupted (hasService : Bool) (names : List Text) : Prop :=
  Known names ∧ hasService = false ∧ databaseName ∈ askedFor names ∧
    (askedFor names).head? ≠ some databaseName

/-- Whatever is installed, it comes to one of three things: a name is unknown, all handlers are
started, or the record service is found to be missing when the turn of `database` comes. -/
theorem install_cases (c : Config) (hasService : Bool) (running : List Handler)
    (names : List Text) :
    (∃ n, names.find? (fun n => n.trim ∉ handlerNames) = some n ∧
      install c hasService running names = (running, .error (.unknownHandler n.trim))) ∨
    (Known names ∧ (databaseName ∈ askedFor names → hasService = true) ∧
      ∃ hs, List.Forall₂ (fun n a => named? c n = some a) (askedFor names) hs ∧
        install c hasService running names = (running ++ hs, .ok ())) ∨
    (Known names ∧ hasService = false ∧ databaseName ∈ askedFor names ∧
      ∃ hs, hs.map name = (askedFor names).takeWhile (· ≠ databaseName) ∧
        install c hasService running names =
          (running ++ hs, .error (.config .noPersistence))) := by
  have hofName : ∀ n : Text, n.trim ∈ handlerNames → ∃ a, ofName c n = .ok a := by
    intro n hn
    obtain ⟨a, ha⟩ := (exists_named?_iff (c := c) _).2 hn
    exact ⟨a, ofName_eq_ok_iff.2 ha⟩
  cases hfind : names.find? (fun n => n.trim ∉ handlerNames) with
  | some n =>
    obtain ⟨hn, before, after, rfl, hbefore⟩ := List.find?_eq_some_iff_append.1 hfind
    have herror : (before ++ n :: after).mapM (ofName c) = .error (.unknownHandler n.trim) := by
      refine mapM_eq_error_iff.2 ⟨before, n, after, rfl, fun m hm => ?_, ?_⟩
      · exact hofName m (by simpa using hbefore m hm)
      · exact ofName_eq_error_iff.2 ⟨by simpa using hn, rfl⟩
    exact Or.inl ⟨n, rfl, by rw [install, herror]⟩
  | none =>
    right
    have hall : ∀ n ∈ names, n.trim ∈ handlerNames := by
      simpa using List.find?_eq_none.1 hfind
    have hknown : Known names := List.forall_mem_map.2 hall
    obtain ⟨hs, hhs⟩ := exists_mapM_eq_ok_iff.2 fun n hn => hofName n (hall n hn)
    have hnamed : List.Forall₂ (fun n a => named? c n = some a) (askedFor names) hs := by
      rw [askedFor, List.forall₂_map_left_iff]
      exact (mapM_eq_ok_iff.1 hhs).imp fun n a hn => ofName_eq_ok_iff.1 hn
    have hinstall : install c hasService running names = start hasService running hs := by
      rw [install, hhs]
    rw [hinstall]
    by_cases hsupplied : databaseName ∈ askedFor names → hasService = true
    · exact Or.inl ⟨hknown, hsupplied, hs, hnamed, start_of_supplied hnamed hsupplied⟩
    · rw [Classical.not_imp, Bool.not_eq_true] at hsupplied
      obtain ⟨hdatabase, hnone⟩ := hsupplied
      obtain ⟨started, hstart, hnames⟩ := start_of_missing running hnamed hdatabase
      rw [hnone]
      exact Or.inr ⟨hknown, rfl, hdatabase, started, hnames, hstart⟩

theorem not_known_of_find? {n : Text} (h : names.find? (fun n => n.trim ∉ handlerNames) = some n) :
    ¬ Known names := by
  intro hknown
  have hn : n.trim ∉ handlerNames := by simpa using List.find?_some h
  exact hn (hknown _ (List.mem_map_of_mem (List.mem_of_find?_eq_some h)))

/-- What installing handlers by name comes to. -/
structure Installs (c : Config) (hasService : Bool) (running : List Handler) (names : List Text) :
    Prop where
  /-- It succeeds exactly if every name is known and the record service is there if it is needed. -/
  ok_iff : (install c hasService running names).2 = .ok () ↔
    Known names ∧ (databaseName ∈ askedFor names → hasService = true)
  /-- Then there is one more handler for each name, in the order of the names. -/
  each : (install c hasService running names).2 = .ok () →
    ∃ hs, (install c hasService running names).1 = running ++ hs ∧ hs.map name = askedFor names ∧
      List.Forall₂ (fun n a => named? c n = some a) (askedFor names) hs
  /-- The first unknown name is reported, and nothing is started. -/
  unknown : ∀ n, names.find? (fun n => n.trim ∉ handlerNames) = some n →
    install c hasService running names = (running, .error (.unknownHandler n.trim))
  /-- A failure leaves the handlers as they were, unless it interrupts the starting of handlers. -/
  unchanged_iff : (∀ e, (install c hasService running names).2 = .error e →
    (install c hasService running names).1 = running) ↔ ¬ Interrupted hasService names
  /-- Then those named before the one that cannot be started stay. -/
  interrupted : Interrupted hasService names → ∃ hs, hs ≠ [] ∧
    hs.map name = (askedFor names).takeWhile (· ≠ databaseName) ∧
      install c hasService running names = (running ++ hs, .error (.config .noPersistence))

/-- Nothing is named before `database` if it comes first. -/
theorem takeWhile_eq_nil_iff {ns : List Text} (h : databaseName ∈ ns) :
    ns.takeWhile (· ≠ databaseName) = [] ↔ ns.head? = some databaseName := by
  cases ns with
  | nil => cases h
  | cons n ns => simp [List.takeWhile_cons]

theorem installs (c : Config) (hasService : Bool) (running : List Handler) (names : List Text) :
    Installs c hasService running names := by
  rcases install_cases c hasService running names with
    ⟨n, hfind, hinstall⟩ | ⟨hknown, hsupplied, hs, hnamed, hinstall⟩ |
      ⟨hknown, rfl, hdatabase, hs, hnames, hinstall⟩
  · -- an unknown name
    have hunknown := not_known_of_find? hfind
    have hnot : ¬ Interrupted hasService names := fun h => hunknown h.1
    refine ⟨?_, ?_, fun m hm => ?_, ?_, fun h => absurd h hnot⟩
    · simp [hinstall, hunknown]
    · simp [hinstall]
    · rw [hfind] at hm
      cases hm
      exact hinstall
    · simp [hinstall, hnot]
  · -- all are started
    have hnot : ¬ Interrupted hasService names := by
      rintro ⟨-, hnone, hdatabase, -⟩
      rw [hsupplied hdatabase] at hnone
      cases hnone
    refine ⟨?_, fun _ => ?_, fun n hn => ?_, ?_, fun h => absurd h hnot⟩
    · simpa [hinstall, hknown] using hsupplied
    · exact ⟨hs, by rw [hinstall], map_name_eq hnamed, hnamed⟩
    · exact absurd hknown (not_known_of_find? hn)
    · simp [hinstall, hnot]
  · -- the record service is missing
    have hnil : hs = [] ↔ (askedFor names).head? = some databaseName := by
      rw [← takeWhile_eq_nil_iff hdatabase, ← hnames, List.map_eq_nil_iff]
    have hiff : Interrupted false names ↔ hs ≠ [] := by
      rw [ne_eq, hnil]
      exact ⟨fun h => h.2.2.2, fun h => ⟨hknown, rfl, hdatabase, h⟩⟩
    refine ⟨?_, ?_, fun n hn => ?_, ?_, fun h => ⟨hs, hiff.1 h, hnames, hinstall⟩⟩
    · simp [hinstall, hdatabase]
    · simp [hinstall]
    · exact absurd hknown (not_known_of_find? hn)
    · rw [hiff]
      simp [hinstall]

/-- Without a record service `database` cannot be started, and `help`, which is named before it, has
been. -/
theorem help_stays_started :
    install {} false [] ["help", "database"] = ([.help], .error (.config .noPersistence)) ∧
      ¬ ∀ e, (install {} false [] ["help", "database"]).2 = .error e →
        (install {} false [] ["help", "database"]).1 = [] := by
  have hinstall : install {} false [] ["help", "database"] =
      ([.help], .error (.config .noPersistence)) := by decide
  refine ⟨hinstall, fun h => ?_⟩
  have hnone := h _ (by rw [hinstall])
  rw [hinstall] at hnone
  cases hnone

end Handler

end ClusterConsole
