/-
Lines that do not ask for a modification leave no trace (`leaves_no_trace`): a run with such a line
in it shows for every other line what it shows without it. Two consoles that differ only in the
filters of their handlers (`Console.Alike`) answer every line alike, since a filter is set anew
before a reply is heard, and a line that reads leaves a console like the one before it.
-/
import ClusterConsole.Proofs.Database.Telling

namespace ClusterConsole

/-! ## Consoles that differ in their filters -/

namespace Handler

/-- Handlers that differ in their filter are the same, or both that of the database. -/
theorem eq_or_database_of_unfiltered_eq {h h' : Handler} (heq : h.unfiltered = h'.unfiltered) :
    h' = h ∨ ∃ filter filter', h = .database filter ∧ h' = .database filter' := by
  cases h with
  | database filter =>
    cases h' with
    | database filter' => exact Or.inr ⟨filter, filter', rfl, rfl⟩
    | _ => cases heq
  | _ =>
    cases h' with
    | database filter' => cases heq
    | _ => exact Or.inl heq.symm

/-- Handlers that differ in their filter turn a command into the same effect, and then have the same
filter: that of the reply they wait for. -/
theorem execute_of_unfiltered_eq {h h' : Handler} (heq : h.unfiltered = h'.unfiltered)
    (runs : Bool) (c : Command) :
    (h'.execute runs c).2 = (h.execute runs c).2 ∧
      ∀ effect, (h.execute runs c).2 = .ok effect →
        (h'.execute runs c).1 = (h.execute runs c).1 := by
  rcases eq_or_database_of_unfiltered_eq heq with rfl | ⟨filter, filter', rfl, rfl⟩
  · exact ⟨rfl, fun _ _ => rfl⟩
  · simp only [execute, executeDatabase_eq]
    cases prepared c with
    | error e =>
      refine ⟨rfl, ?_⟩
      rintro effect ⟨⟩
    | ok pair => exact ⟨rfl, fun _ _ => rfl⟩

end Handler

namespace Console

/-- The consoles differ in nothing but the filters that their handlers have. -/
structure Alike (s s' : Console) : Prop extends Agrees s s' where
  service : s'.service = s.service

namespace Alike

variable {s s' : Console}

/-- Handlers that differ in their filter stand at the same places. -/
theorem getElem? (h : Alike s s') (place : Nat) :
    (s.handlers[place]? = none ∧ s'.handlers[place]? = none) ∨
      ∃ a a', s.handlers[place]? = some a ∧ s'.handlers[place]? = some a' ∧
        a.unfiltered = a'.unfiltered := by
  cases ha : s.handlers[place]? with
  | some a =>
    obtain ⟨a', ha', heq⟩ := h.toAgrees.symm.handler ha
    exact Or.inr ⟨a, a', rfl, ha', heq.symm⟩
  | none =>
    cases ha' : s'.handlers[place]? with
    | none => exact Or.inl ⟨rfl, rfl⟩
    | some a' =>
      obtain ⟨a, ha'', -⟩ := h.toAgrees.handler ha'
      rw [ha''] at ha
      cases ha

theorem withHandler (h : Alike s s') (place : Nat) {a a' : Handler}
    (ha : a.unfiltered = a'.unfiltered) :
    Alike (s.withHandler place a) (s'.withHandler place a') := by
  refine ⟨⟨h.catalog, ?_⟩, h.service⟩
  simp only [Console.withHandler, List.map_set, h.handlers, ha]

/-- A handler does the same in either console. -/
theorem perform (h : Alike s s') (place : Nat) (a : Handler) (e : Effect) :
    (s'.perform place a e).2 = (s.perform place a e).2 ∧
      Alike (s.perform place a e).1 (s'.perform place a e).1 := by
  cases e with
  | emit events => exact ⟨rfl, h⟩
  | askRegistry =>
    rw [Console.perform, Console.perform, h.catalog]
    exact ⟨rfl, h.withHandler place rfl⟩
  | askStore request =>
    rw [Console.perform, Console.perform, h.service]
    cases s.service.call request with
    | mk service reply =>
      have hservice : Alike { s with service := service } { s' with service := service } :=
        ⟨⟨h.catalog, h.handlers⟩, rfl⟩
      cases reply with
      | none => exact ⟨rfl, hservice⟩
      | some reply => exact ⟨rfl, hservice.withHandler place rfl⟩

theorem execute (h : Alike s s') (c : Command) :
    (s'.execute c).2 = (s.execute c).2 ∧ Alike (s.execute c).1 (s'.execute c).1 := by
  rcases h.getElem? c.registration.handler.place with ⟨hp, hp'⟩ | ⟨a, a', hp, hp', heq⟩
  · rw [execute_none hp, execute_none hp']
    exact ⟨rfl, h⟩
  · obtain ⟨hresult, hstate⟩ := Handler.execute_of_unfiltered_eq heq s.service.runs c
    have hu := Handler.unfiltered_execute a s.service.runs c
    have hu' := Handler.unfiltered_execute a' s.service.runs c
    cases hx : a.execute s.service.runs c with
    | mk b result =>
      cases hx' : a'.execute s.service.runs c with
      | mk b' result' =>
        rw [hx, hx'] at hresult hstate
        rw [hx] at hu
        rw [hx'] at hu'
        obtain rfl : result' = result := hresult
        have hx'' : a'.execute s'.service.runs c = (b', result') := by rw [h.service, hx']
        cases result' with
        | error e =>
          rw [execute_error hp hx, execute_error hp' hx'']
          exact ⟨rfl, h.withHandler _ (by rw [hu, hu', heq])⟩
        | ok effect =>
          obtain rfl : b' = b := hstate effect rfl
          rw [execute_ok hp hx, execute_ok hp' hx'']
          exact (h.withHandler _ rfl).perform _ _ effect

/-- Consoles that differ in their filters answer a line alike, and go on differing in no more. -/
theorem submit (h : Alike s s') (line : Line) :
    (s'.submit line).2 = (s.submit line).2 ∧ Alike (s.submit line).1 (s'.submit line).1 := by
  unfold Console.submit
  rw [h.catalog]
  split_ifs
  · cases s.catalog.settle line with
    | inform event => exact ⟨rfl, h⟩
    | execute c => exact h.execute c
  · exact ⟨rfl, h⟩

theorem submitAll (h : Alike s s') (lines : List Line) :
    (s'.submitAll lines).2 = (s.submitAll lines).2 := by
  induction lines generalizing s s' with
  | nil => rfl
  | cons line lines ih =>
    obtain ⟨houtcome, hafter⟩ := h.submit line
    simp only [Console.submitAll, houtcome, ih hafter]

end Alike

end Console

/-! ## Lines that read -/

/-- The request reads records, and changes none. -/
def Request.reads : Request → Bool
  | .getAll _ | .getByIds _ _ _ => true
  | .add _ _ _ | .delete _ _ => false

/-- Without an option for adding or deleting, the request is one for reading. -/
theorem Database.reads_of_request {p : ParsedOptions} {r : Request} (h : request p = .ok r)
    (ha : p.has 'a' = false) (hd : p.has 'd' = false) : r.reads = true := by
  obtain ⟨t, -, h⟩ := bind_eq_ok.1 h
  obtain ⟨status, -, h⟩ := bind_eq_ok.1 h
  split_ifs at h with hcount hg
  · unfold getRequest at h
    split at h
    · obtain ⟨ids, -, rfl⟩ := map_eq_ok.1 h
      rfl
    · cases h
      rfl
  · -- none of the three actions is asked for, and there has to be one
    rw [Bool.not_eq_true] at hg
    simp [actions, ha, hd, hg] at hcount

/-- A store that runs a request for reading stays as it is, whatever becomes of it on the way. -/
theorem Store.call_seal_of_reads (s : Store) {r : Request} (h : r.reads = true) :
    (s.call r.seal).1 = s := by
  rcases s.call_seal r with ⟨r', hr', hcall⟩ | ⟨-, message, hcall⟩
  · rw [hcall]
    cases r with
    | getAll _ | getByIds _ _ _ =>
      cases hr'
      rfl
    | add _ _ _ | delete _ _ => cases h
  · rw [hcall]

namespace Console

/-- All that the line asks the store for is reading. -/
def Inquires (s : Console) (line : Line) : Prop :=
  ∀ place r pending, s.Asks line place r pending → r.reads = true

theorem Inquires.of_agrees {s s' : Console} {line : Line} (h : s.Inquires line)
    (ha : s.Agrees s') : s'.Inquires line :=
  fun place r pending hasks => h place r pending (hasks.of_agrees ha.symm)

/-- A line that reads leaves no more than another filter behind. -/
theorem Inquires.alike_submit {s : Console} {line : Line} (h : s.Inquires line) {store : Store}
    (hservice : s.service = .memory store) : Alike s (s.submit line).1 := by
  refine ⟨submit_frame s line, ?_⟩
  by_cases hasks : ∃ place r pending, s.Asks line place r pending
  · obtain ⟨place, r, pending, hasks⟩ := hasks
    have hreads := h place r pending hasks
    rw [(submit_memory hasks hservice).1, store.call_seal_of_reads hreads, hservice]
  · push Not at hasks
    exact (submit_of_not_asks hasks).1

end Console

/-- The line comes to a command of `database` that is to add or to delete records. -/
def Catalog.modifies (c : Catalog) (line : Line) : Bool :=
  line.asks && match c.settle line with
    | .inform _ => false
    | .execute command => decide (command.registration.path = Handler.databasePath) &&
      match command.parseOptions with
      | .ok p => p.has 'a' || p.has 'd'
      | .error _ => false

namespace Console

/-- A line that is not to modify records reads them at most. -/
theorem inquires_of_not_modifies {s : Console} (hserved : s.Served) {line : Line}
    (hline : s.catalog.modifies line = false) : s.Inquires line := by
  intro place r pending hasks
  obtain ⟨c, hsettle, rfl, hprepared⟩ := hasks.command
  obtain ⟨filter, hplace⟩ := hasks.handler
  obtain ⟨p, hparsed, hprepared⟩ := bind_eq_ok.1 hprepared
  obtain ⟨r', hrequest, hprepared⟩ := bind_eq_ok.1 hprepared
  obtain ⟨pending', -, hprepared⟩ := bind_eq_ok.1 hprepared
  cases hprepared
  have hpath : c.registration.path = Handler.databasePath := by
    rw [hserved.registration_eq hsettle hplace]
    rfl
  simp only [Catalog.modifies, hasks.asks, hsettle, mapError_eq_ok.1 hparsed, hpath, decide_true,
    Bool.true_and, Bool.or_eq_false_iff] at hline
  exact Database.reads_of_request hrequest hline.1 hline.2

/-! ## Runs -/

theorem submitAll_cons (s : Console) (line : Line) (lines : List Line) :
    (s.submitAll (line :: lines)).2 =
      (s.submit line).2 :: ((s.submit line).1.submitAll lines).2 := rfl

theorem submitAll_append (s : Console) (xs ys : List Line) :
    s.submitAll (xs ++ ys) = (((s.submitAll xs).1.submitAll ys).1,
      (s.submitAll xs).2 ++ ((s.submitAll xs).1.submitAll ys).2) := by
  induction xs generalizing s with
  | nil => rfl
  | cons x xs ih => simp only [List.cons_append, submitAll, ih]

/-- One outcome for each line. -/
theorem length_submitAll (s : Console) (lines : List Line) :
    (s.submitAll lines).2.length = lines.length := by
  induction lines generalizing s with
  | nil => rfl
  | cons line lines ih => simp only [submitAll, List.length_cons, ih]

/-- A console over a store stays one. -/
theorem exists_memory_submitAll {s : Console} {store : Store} (hservice : s.service = .memory store)
    (lines : List Line) : ∃ store', (s.submitAll lines).1.service = .memory store' := by
  induction lines generalizing s store with
  | nil => exact ⟨store, hservice⟩
  | cons line lines ih =>
    by_cases hasks : ∃ place r pending, s.Asks line place r pending
    · obtain ⟨place, r, pending, hasks⟩ := hasks
      exact ih (submit_memory hasks hservice).1
    · push Not at hasks
      exact ih ((submit_of_not_asks hasks).1.trans hservice)

/-- The line leaves no trace: whatever lines come before it and after it, each of them has the
outcome that it has without the line, and given twice in a row the line has the same outcome
twice. -/
def NoTrace (s : Console) (line : Line) : Prop :=
  ∀ xs ys, ∃ before o after, before.length = xs.length ∧ after.length = ys.length ∧
    (s.submitAll (xs ++ ys)).2 = before ++ after ∧
    (s.submitAll (xs ++ [line] ++ ys)).2 = before ++ [o] ++ after ∧
    (s.submitAll (xs ++ [line, line] ++ ys)).2 = before ++ [o, o] ++ after

theorem Inquires.noTrace {s₀ : Console} {line : Line} (h : s₀.Inquires line) {store : Store}
    (hservice : s₀.service = .memory store) : s₀.NoTrace line := by
  intro xs ys
  set s := (s₀.submitAll xs).1 with hs
  obtain ⟨store', hstore'⟩ := exists_memory_submitAll hservice xs
  have hline : Alike s (s.submit line).1 :=
    (h.of_agrees (submitAll_frame s₀ xs)).alike_submit hstore'
  -- the line meets a console like the first one when it is given again
  obtain ⟨hagain, hline'⟩ := hline.submit line
  have honce : (s.submitAll (line :: ys)).2 = (s.submit line).2 :: (s.submitAll ys).2 := by
    rw [submitAll_cons, hline.submitAll]
  have htwice : (s.submitAll (line :: line :: ys)).2 =
      (s.submit line).2 :: (s.submit line).2 :: (s.submitAll ys).2 := by
    rw [submitAll_cons, submitAll_cons, hagain, hline'.submitAll, hline.submitAll]
  refine ⟨(s₀.submitAll xs).2, (s.submit line).2, (s.submitAll ys).2, length_submitAll s₀ xs,
    length_submitAll s ys, ?_, ?_, ?_⟩
  · rw [submitAll_append]
  · simp only [List.append_assoc, List.cons_append, List.nil_append, submitAll_append, ← hs, honce]
  · simp only [List.append_assoc, List.cons_append, List.nil_append, submitAll_append, ← hs, htwice]

/-- In a console that was set up over a store, a line that is not to modify records leaves no
trace. -/
theorem leaves_no_trace {c : Config} {store : Store} {scripts : List Script} {s₀ : Console}
    (hsetup : setup c (some (.memory store)) scripts = .ok s₀) {line : Line}
    (hline : s₀.catalog.modifies line = false) : s₀.NoTrace line := by
  have hservice : s₀.service = .memory store := by
    obtain ⟨hs, rfl, -⟩ := eq_of_setup hsetup
    rfl
  exact (inquires_of_not_modifies (served_of_setup hsetup) hline).noTrace hservice

/-- Reading all inactive records leaves no trace, although the handler of the database keeps the
status until the reply comes. -/
theorem leaves_no_trace_inactive :
    setup {} (some (.memory Store.empty)) [] = .ok standard ∧
      standard.catalog.modifies (Line.ofRaw "database -t record -g -s inactive") = false ∧
      standard.NoTrace (Line.ofRaw "database -t record -g -s inactive") := by
  have hline :
      standard.catalog.modifies (Line.ofRaw "database -t record -g -s inactive") = false := by
    decide +kernel
  exact ⟨setup_standard, hline, leaves_no_trace setup_standard hline⟩

end Console

end ClusterConsole
