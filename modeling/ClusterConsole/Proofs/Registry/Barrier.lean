/-
The registry loses, repeats, reorders and rushes no answer (`barrier_holds`), whatever is done with
it and in whatever order. What is to be expected is read off the operations alone: how many handlers
are awaited (`awaited`), which entries there are (`entries`), which queries have come in
(`received`). The registry follows these (`Follows`), and it keeps its queries in line (`Queues`, one
step in `queues_perform`); a query that comes in too early waits in its place until the step that
brings the awaited handlers to none (`waits`).

The awaited handlers are counted in 64 bits. While the count is exact (`Countable`, `toNat_awaited`)
the queries keep their order. A count that goes beyond 64 bits can come out as zero, and then a query
overtakes one that is held (`overtakes_held`); even so none is lost and none is answered twice.
-/
import ClusterConsole.Registry
import Mathlib.Tactic

namespace ClusterConsole

variable {ρ : Type}

/-! ## Operations -/

/-- What can be done with a registry. -/
inductive Operation (ρ : Type)
  /-- More handlers are asked for their registrations. -/
  | expect (count : UInt64)
  /-- Registrations are put in directly. -/
  | register (response : Response)
  /-- A message arrives. -/
  | deliver (m : RegistryMessage ρ)

namespace Operation

/-- The arrival of a query. -/
abbrev query (q : Query) (replyTo : ρ) : Operation ρ := .deliver (.query q replyTo)

/-- The arrival of a handler's registrations. -/
abbrev registered (response : Response) : Operation ρ := .deliver (.registered response)

/-- The query that the operation brings. -/
def query? : Operation ρ → Option (Query × ρ)
  | .deliver (.query q replyTo) => some (q, replyTo)
  | _ => none

/-- How many handlers are awaited after the operation, counted in 64 bits. -/
def recount (n : UInt64) : Operation ρ → UInt64
  | .expect count => n + count
  | .deliver (.registered _) => if n = 0 then 0 else n - 1
  | _ => n

/-- How many they are without a bound on the count. -/
def tally (n : Nat) : Operation ρ → Nat
  | .expect count => n + count.toNat
  | .deliver (.registered _) => n - 1
  | _ => n

/-- The registrations that the operation brings. -/
def registrations : Operation ρ → List Registration
  | .register response => response.catalog.entries
  | .deliver (.registered response) => response.catalog.entries
  | _ => []

end Operation

/-- The queries that have come in, in the order of arrival. -/
def received (ops : List (Operation ρ)) : List (Query × ρ) := ops.filterMap Operation.query?

/-- How many handlers are awaited after the operations, counted in 64 bits. -/
def awaited (ops : List (Operation ρ)) : UInt64 := ops.foldl Operation.recount 0

/-- How many they are without a bound on the count. -/
def tallied (ops : List (Operation ρ)) : Nat := ops.foldl Operation.tally 0

/-- There are never more handlers to be awaited than 64 bits can count. -/
def Countable (ops : List (Operation ρ)) : Prop :=
  ∀ earlier, earlier <+: ops → tallied earlier < 2 ^ 64

/-- The entries after the operations. -/
def entries (ops : List (Operation ρ)) : Catalog :=
  Catalog.ofList (ops.flatMap Operation.registrations)

/-- Whether queries are to be answered at once after the operations. -/
def ready (barrier : Bool) (ops : List (Operation ρ)) : Bool := !barrier || awaited ops == 0

/-- The answer to a query from given entries, with the address it goes to. -/
def answerFrom (c : Catalog) (q : Query × ρ) : ρ × Response :=
  match q.1 with
  | .lookup l => (q.2, ⟨c.select l.paths, l.origin⟩)
  | .list => (q.2, ⟨c, none⟩)

@[simp] theorem received_concat (ops : List (Operation ρ)) (op : Operation ρ) :
    received (ops ++ [op]) = received ops ++ op.query?.toList := by
  rw [received, List.filterMap_append]
  cases h : op.query? <;> simp [h, received]

@[simp] theorem awaited_concat (ops : List (Operation ρ)) (op : Operation ρ) :
    awaited (ops ++ [op]) = op.recount (awaited ops) := by
  simp [awaited]

@[simp] theorem tallied_concat (ops : List (Operation ρ)) (op : Operation ρ) :
    tallied (ops ++ [op]) = op.tally (tallied ops) := by
  simp [tallied]

@[simp] theorem entries_concat (ops : List (Operation ρ)) (op : Operation ρ) :
    entries (ops ++ [op]) = (entries ops).addAll op.registrations := by
  simp [entries, Catalog.ofList, Catalog.addAll]

theorem ready_eq_false_iff {b : Bool} {ops : List (Operation ρ)} :
    ready b ops = false ↔ b = true ∧ awaited ops ≠ 0 := by
  simp [ready]

/-! ## Counting -/

theorem Countable.mono {ops ops' : List (Operation ρ)} (h : Countable ops') (hle : ops <+: ops') :
    Countable ops := fun _ hearlier => h _ (hearlier.trans hle)

theorem Countable.of_concat {ops : List (Operation ρ)} {op : Operation ρ}
    (h : Countable (ops ++ [op])) : Countable ops := h.mono (List.prefix_append _ _)

/-- One less in 64 bits is one less, and not less than zero. -/
theorem toNat_recount_registered (n : UInt64) (response : Response) :
    (Operation.recount n (.registered (ρ := ρ) response)).toNat = n.toNat - 1 := by
  unfold Operation.recount
  split_ifs with hn
  · rw [hn]
    rfl
  · have hpos : 1 ≤ n.toNat := by
      by_contra hlt
      exact hn (UInt64.toNat_inj.1 (by simpa using hlt))
    have hle : (1 : UInt64) ≤ n := UInt64.le_iff_toNat_le.2 hpos
    rw [UInt64.toNat_sub_of_le _ _ hle]
    rfl

/-- A count that never goes beyond 64 bits is exact. -/
theorem toNat_awaited {ops : List (Operation ρ)} (h : Countable ops) :
    (awaited ops).toNat = tallied ops := by
  induction ops using List.reverseRecOn with
  | nil => rfl
  | append_singleton ops op ih =>
    have hops := ih h.of_concat
    have hlt := h _ List.prefix_rfl
    rw [tallied_concat] at hlt
    rw [awaited_concat, tallied_concat]
    cases op with
    | expect count =>
      simp only [Operation.tally] at hlt ⊢
      rw [Operation.recount, UInt64.toNat_add, hops, Nat.mod_eq_of_lt hlt]
    | register response => exact hops
    | deliver m =>
      cases m with
      | registered response => rw [toNat_recount_registered, hops]; rfl
      | query q a => exact hops

/-- An exact count that handlers are added to does not become zero. -/
theorem awaited_expect_ne_zero {ops : List (Operation ρ)} {count : UInt64}
    (h : Countable (ops ++ [.expect count])) (hops : awaited ops ≠ 0) :
    awaited (ops ++ [.expect count]) ≠ 0 := by
  have hbefore := toNat_awaited h.of_concat
  have hafter := toNat_awaited h
  rw [tallied_concat] at hafter
  intro hzero
  rw [hzero] at hafter
  simp only [Operation.tally, UInt64.toNat_zero] at hafter
  exact hops (UInt64.toNat_inj.1 (by rw [hbefore, UInt64.toNat_zero]; omega))

namespace Registry

/-- Carries an operation out; the answers that it sets free come in order. -/
def perform (r : Registry ρ) : Operation ρ → Registry ρ × List (ρ × Response)
  | .expect count => (r.expect count, [])
  | .register response => (r.register response, [])
  | .deliver m => r.handle m

/-- Carries operations out one after another. -/
def performAll (r : Registry ρ) : List (Operation ρ) → Registry ρ × List (ρ × Response)
  | [] => (r, [])
  | op :: ops =>
    let (r, answers) := r.perform op
    let (r, more) := r.performAll ops
    (r, answers ++ more)

/-- The registry after the operations. -/
def after (b : Bool) (ops : List (Operation ρ)) : Registry ρ := ((new b).performAll ops).1

/-- All answers up to the end of the operations. -/
def answers (b : Bool) (ops : List (Operation ρ)) : List (ρ × Response) :=
  ((new b).performAll ops).2

/-- The answers of an operation that comes after others. -/
def answersTo (b : Bool) (ops : List (Operation ρ)) (op : Operation ρ) : List (ρ × Response) :=
  ((after b ops).perform op).2

theorem performAll_concat (r : Registry ρ) (ops : List (Operation ρ)) (op : Operation ρ) :
    r.performAll (ops ++ [op]) =
      (((r.performAll ops).1.perform op).1,
        (r.performAll ops).2 ++ ((r.performAll ops).1.perform op).2) := by
  induction ops generalizing r with
  | nil => simp [performAll]
  | cons o ops ih => simp [performAll, ih, List.append_assoc]

theorem after_concat (b : Bool) (ops : List (Operation ρ)) (op : Operation ρ) :
    after b (ops ++ [op]) = ((after b ops).perform op).1 := by
  rw [after, performAll_concat]
  rfl

theorem answers_concat (b : Bool) (ops : List (Operation ρ)) (op : Operation ρ) :
    answers b (ops ++ [op]) = answers b ops ++ answersTo b ops op := by
  rw [answers, performAll_concat]
  rfl

/-! ## What a registry follows -/

/-- An answer that the query has got from the entries of some moment. -/
def Answers (ops : List (Operation ρ)) (q : Query × ρ) (given : ρ × Response) : Prop :=
  ∃ moment, moment <+: ops ∧ given = answerFrom (entries moment) q

theorem Answers.mono {ops ops' : List (Operation ρ)} (h : ops <+: ops') {q : Query × ρ}
    {given : ρ × Response} : Answers ops q given → Answers ops' q given := by
  rintro ⟨moment, hprefix, heq⟩
  exact ⟨moment, hprefix.trans h, heq⟩

theorem Answers.concat {ops : List (Operation ρ)} {op : Operation ρ} {q : Query × ρ}
    {given : ρ × Response} : Answers ops q given → Answers (ops ++ [op]) q given :=
  Answers.mono (List.prefix_append _ _)

/-- An answer goes where its query wants it. -/
theorem Answers.address {ops : List (Operation ρ)} {q : Query × ρ} {given : ρ × Response}
    (h : Answers ops q given) : given.1 = q.2 := by
  obtain ⟨moment, -, rfl⟩ := h
  obtain ⟨l | _, a⟩ := q <;> rfl

/-- The state of a registry agrees with the operations: the barrier, the awaited handlers and the
entries are theirs. -/
structure Follows (b : Bool) (ops : List (Operation ρ)) (r : Registry ρ) : Prop where
  barrier : r.barrier = b
  awaiting : r.awaiting = awaited ops
  catalog : r.catalog = entries ops

section Steps

variable {b : Bool} {ops : List (Operation ρ)} {r : Registry ρ} {given : List (ρ × Response)}

theorem Follows.isReady (h : Follows b ops r) : r.isReady = ready b ops := by
  rw [Registry.isReady, ready, h.barrier, h.awaiting]

theorem answer_eq (r : Registry ρ) (q : Query × ρ) :
    (q.2, r.answer q.1) = answerFrom r.catalog q := by
  obtain ⟨q, a⟩ := q
  cases q <;> rfl

/-- What the registrations of a handler do to a registry that follows the operations so far: the
queries that are held are all answered when the last awaited handler reports, and stay otherwise. -/
theorem perform_registered (h : Follows b ops r) (response : Response) :
    let ops' := ops ++ [Operation.registered response]
    r.perform (.registered response) =
      if ready b ops = false ∧ ready b ops' = true then
        (⟨entries ops', awaited ops', b, []⟩, r.held.map (answerFrom (entries ops')))
      else (⟨entries ops', awaited ops', b, r.held⟩, []) := by
  intro ops'
  have hbefore : (r.register response).isReady = ready b ops := h.isReady
  have hcounted : (r.register response).countDown = ⟨entries ops', awaited ops', b, r.held⟩ := by
    simp only [ops', countDown, register, entries_concat, awaited_concat, h.barrier, h.awaiting,
      h.catalog]
    rfl
  rw [perform, handle]
  simp only [hbefore, hcounted, Bool.and_eq_true, Bool.not_eq_true']
  have hafter : Registry.isReady ⟨entries ops', awaited ops', b, r.held⟩ = ready b ops' := rfl
  rw [hafter]
  split_ifs with hc
  · simp only [release, Prod.mk.injEq, true_and]
    exact List.map_congr_left fun q _ => answer_eq _ q
  · rfl

/-- A query is answered at once by a registry that is ready, and is held otherwise. -/
theorem perform_query (h : Follows b ops r) (q : Query) (a : ρ) :
    r.perform (.query q a) =
      if ready b ops = true then (r, [answerFrom (entries ops) (q, a)])
      else ({ r with held := r.held ++ [(q, a)] }, []) := by
  rw [perform, handle, h.isReady, ← h.catalog, ← answer_eq]

/-- Each operation keeps a registry in step with the operations. -/
theorem follows_perform (h : Follows b ops r) (op : Operation ρ) :
    Follows b (ops ++ [op]) (r.perform op).1 := by
  cases op with
  | expect _ | register _ =>
    refine ⟨h.barrier, ?_, ?_⟩
    · rw [awaited_concat, ← h.awaiting]
      rfl
    · rw [entries_concat, ← h.catalog]
      rfl
  | deliver m =>
    cases m with
    | registered response =>
      rw [perform_registered h]
      split_ifs <;> exact ⟨rfl, rfl, rfl⟩
    | query q a =>
      have hawaited : awaited (ops ++ [Operation.query q a]) = awaited ops := awaited_concat _ _
      have hentries : entries (ops ++ [Operation.query q a]) = entries ops := entries_concat _ _
      rw [perform_query h]
      split_ifs <;>
        exact ⟨h.barrier, h.awaiting.trans hawaited.symm, h.catalog.trans hentries.symm⟩

/-! ## Queries in line -/

/-- The queries that have come in have been answered or are held, each of them once. As long as the
count of awaited handlers is exact, queries are held only while they are not to be answered, and the
held ones are the last of those that have come in; the others have been answered in order. -/
structure Queues (b : Bool) (ops : List (Operation ρ)) (r : Registry ρ)
    (given : List (ρ × Response)) : Prop where
  holding : Countable ops → r.held ≠ [] → ready b ops = false
  order : ∃ answered, (answered ++ r.held).Perm (received ops) ∧
    (Countable ops → answered ++ r.held = received ops) ∧
      List.Forall₂ (Answers ops) answered given

theorem Queues.held_eq_nil (h : Queues b ops r given) (hcount : Countable ops)
    (hr : ready b ops = true) : r.held = [] := by
  by_contra hne
  rw [h.holding hcount hne] at hr
  cases hr

/-- In a step some of the held queries and of what comes in are answered, and the rest is held. -/
theorem Queues.order_concat (h : Queues b ops r given) (op : Operation ρ)
    (now left : List (Query × ρ)) {moment : List (Operation ρ)} (hmoment : moment <+: ops ++ [op])
    (hall : (now ++ left).Perm (r.held ++ op.query?.toList))
    (hexact : Countable (ops ++ [op]) → now ++ left = r.held ++ op.query?.toList) :
    ∃ answered, (answered ++ left).Perm (received (ops ++ [op])) ∧
      (Countable (ops ++ [op]) → answered ++ left = received (ops ++ [op])) ∧
        List.Forall₂ (Answers (ops ++ [op])) answered
          (given ++ now.map (answerFrom (entries moment))) := by
  obtain ⟨answered, hperm, horder, hgiven⟩ := h.order
  refine ⟨answered ++ now, ?_, fun hcount => ?_, ?_⟩
  · rw [List.append_assoc, received_concat]
    refine (hall.append_left answered).trans ?_
    rw [← List.append_assoc]
    exact hperm.append_right _
  · rw [List.append_assoc, hexact hcount, ← List.append_assoc,
      horder hcount.of_concat, received_concat]
  · refine List.rel_append (hgiven.imp fun _ _ => Answers.concat) ?_
    rw [List.forall₂_map_right_iff, List.forall₂_same]
    exact fun q _ => ⟨moment, hmoment, rfl⟩

/-- In a step that answers nothing, what comes in queues up. -/
theorem Queues.concat (h : Queues b ops r given) {op : Operation ρ} {r' : Registry ρ}
    (hheld : r'.held = r.held ++ op.query?.toList)
    (hholding : Countable (ops ++ [op]) → r'.held ≠ [] → ready b (ops ++ [op]) = false) :
    Queues b (ops ++ [op]) r' given := by
  have horder := h.order_concat op [] (r.held ++ op.query?.toList) List.nil_prefix .rfl fun _ => rfl
  rw [← hheld, List.map_nil, List.append_nil] at horder
  exact ⟨hholding, horder⟩

theorem queues_registered (h : Follows b ops r) (hq : Queues b ops r given) (response : Response) :
    Queues b (ops ++ [Operation.registered response]) (r.perform (.registered response)).1
      (given ++ (r.perform (.registered response)).2) := by
  -- either all held queries are answered, or none of them
  rw [perform_registered h]
  split_ifs with hc
  · exact ⟨fun _ hne => absurd rfl hne,
      hq.order_concat _ r.held [] List.prefix_rfl (by simp [Operation.query?])
        (by simp [Operation.query?])⟩
  · rw [List.append_nil]
    refine hq.concat (List.append_nil _).symm fun hcount hne => ?_
    by_contra hr
    have hbefore := hq.holding hcount.of_concat hne
    exact hc ⟨hbefore, by simpa using hr⟩

theorem queues_query (h : Follows b ops r) (hq : Queues b ops r given) (q : Query) (a : ρ) :
    Queues b (ops ++ [Operation.query q a]) (r.perform (.query q a)).1
      (given ++ (r.perform (.query q a)).2) := by
  have hready : ready b (ops ++ [Operation.query q a]) = ready b ops := by
    rw [ready, awaited_concat]
    rfl
  rw [perform_query h]
  split_ifs with hr
  · have hnone : Countable (ops ++ [Operation.query q a]) → r.held = [] := fun hcount =>
      hq.held_eq_nil hcount.of_concat hr
    refine ⟨fun hcount hne => absurd (hnone hcount) hne, ?_⟩
    refine hq.order_concat _ [(q, a)] r.held (List.prefix_append ops _) ?_ fun hcount => ?_
    · exact List.perm_append_comm
    · rw [hnone hcount]
      rfl
  · rw [List.append_nil]
    refine hq.concat rfl fun _ _ => ?_
    rw [hready]
    simpa using hr

/-- Each operation keeps the queries in line. -/
theorem queues_perform (h : Follows b ops r) (hq : Queues b ops r given) (op : Operation ρ) :
    Queues b (ops ++ [op]) (r.perform op).1 (given ++ (r.perform op).2) := by
  cases op with
  | expect count =>
    simp only [perform, List.append_nil]
    refine hq.concat (List.append_nil _).symm fun hcount hne => ?_
    -- more handlers to wait for are no reason to be ready
    have hnot := hq.holding hcount.of_concat hne
    obtain ⟨hbarrier, hawaited⟩ := ready_eq_false_iff.1 hnot
    exact ready_eq_false_iff.2 ⟨hbarrier, awaited_expect_ne_zero hcount hawaited⟩
  | register response =>
    simp only [perform, List.append_nil]
    refine hq.concat (List.append_nil _).symm fun hcount hne => ?_
    rw [ready_eq_false_iff, awaited_concat]
    exact ready_eq_false_iff.1 (hq.holding hcount.of_concat hne)
  | deliver m =>
    cases m with
    | registered response => exact queues_registered h hq response
    | query q a => exact queues_query h hq q a

end Steps

/-- From a new registry on, the registry is in step with the operations. -/
theorem follows_after (b : Bool) (ops : List (Operation ρ)) : Follows b ops (after b ops) := by
  induction ops using List.reverseRecOn with
  | nil => exact ⟨rfl, rfl, rfl⟩
  | append_singleton ops op ih =>
    rw [after_concat]
    exact follows_perform ih op

theorem queues_after (b : Bool) (ops : List (Operation ρ)) :
    Queues b ops (after b ops) (answers b ops) := by
  induction ops using List.reverseRecOn with
  | nil => exact ⟨fun _ hne => absurd rfl hne, [], .rfl, fun _ => rfl, .nil⟩
  | append_singleton ops op ih =>
    rw [after_concat, answers_concat]
    exact queues_perform (follows_after b ops) ih op

theorem answers_mono (b : Bool) {ops ops' : List (Operation ρ)} (h : ops <+: ops') :
    answers b ops <+: answers b ops' := by
  obtain ⟨more, rfl⟩ := h
  induction more using List.reverseRecOn with
  | nil => rw [List.append_nil]
  | append_singleton more op ih =>
    rw [← List.append_assoc, answers_concat]
    exact ih.trans (List.prefix_append _ _)

/-- What the registry gives is the answer to a query that has come in. -/
theorem received_of_mem_answers {b : Bool} {ops : List (Operation ρ)} {given : ρ × Response}
    (h : given ∈ answers b ops) : ∃ q ∈ received ops, Answers ops q given := by
  obtain ⟨answered, hperm, -, heach⟩ := (queues_after b ops).order
  obtain ⟨i, hi, rfl⟩ := List.getElem_of_mem h
  have hi' : i < answered.length := by rwa [heach.length_eq]
  refine ⟨answered[i], ?_, heach.get hi' hi⟩
  exact hperm.subset (List.mem_append_left _ (List.getElem_mem hi'))

/-! ## Queries that wait -/

/-- No handler's report among the later operations brings the awaited handlers to none. -/
def Incomplete (earlier later : List (Operation ρ)) : Prop :=
  ∀ mid response rest, later = mid ++ .registered response :: rest →
    awaited (earlier ++ (mid ++ [Operation.registered response])) ≠ 0

theorem awaited_concat_ne_zero {ops : List (Operation ρ)} {op : Operation ρ}
    (hcount : Countable (ops ++ [op])) (hops : awaited ops ≠ 0)
    (hop : ∀ response, op = .registered response → awaited (ops ++ [op]) ≠ 0) :
    awaited (ops ++ [op]) ≠ 0 := by
  cases op with
  | expect count => exact awaited_expect_ne_zero hcount hops
  | register response =>
    rw [awaited_concat]
    exact hops
  | deliver m =>
    cases m with
    | registered response => exact hop response rfl
    | query q a =>
      rw [awaited_concat]
      exact hops

/-- An operation that leaves the registry not ready answers nothing, and the query that it may bring
queues up behind those that are held. -/
theorem perform_of_not_ready {b : Bool} {ops : List (Operation ρ)} {r : Registry ρ}
    (h : Follows b ops r) {op : Operation ρ} (hnot : ready b (ops ++ [op]) = false) :
    (r.perform op).1.held = r.held ++ op.query?.toList ∧ (r.perform op).2 = [] := by
  cases op with
  | expect count => exact ⟨(List.append_nil _).symm, rfl⟩
  | register response => exact ⟨(List.append_nil _).symm, rfl⟩
  | deliver m =>
    cases m with
    | registered response =>
      rw [perform_registered h, if_neg]
      · exact ⟨(List.append_nil _).symm, rfl⟩
      · rintro ⟨-, hr⟩
        rw [hnot] at hr
        cases hr
    | query q a =>
      -- the query itself leaves the awaited handlers as they are
      have hbefore : ready b ops = false := by
        rw [ready, awaited_concat] at hnot
        exact hnot
      rw [perform_query h, if_neg (by rw [hbefore]; exact Bool.false_ne_true)]
      exact ⟨rfl, rfl⟩

/-- While handlers are awaited, what has come in waits: nothing is answered, and the queries that
come in queue up behind those that are held. -/
theorem waits {earlier later : List (Operation ρ)} (hcount : Countable (earlier ++ later))
    (hstart : awaited earlier ≠ 0) (hlater : Incomplete earlier later) :
    awaited (earlier ++ later) ≠ 0 ∧
      (after true (earlier ++ later)).held = (after true earlier).held ++ received later ∧
      answers true (earlier ++ later) = answers true earlier := by
  -- from the last operation back: what begins a sequence without a last report has none itself
  induction later using List.reverseRecOn with
  | nil => simpa [received] using hstart
  | append_singleton later op ih =>
    have hshorter : Incomplete earlier later := by
      intro mid response rest heq
      exact hlater mid response (rest ++ [op]) (by rw [heq]; simp)
    have hassoc : earlier ++ (later ++ [op]) = earlier ++ later ++ [op] := by simp
    rw [hassoc] at hcount
    obtain ⟨hawaited, hheld, hanswers⟩ := ih hcount.of_concat hshorter
    have hstill : awaited (earlier ++ later ++ [op]) ≠ 0 := by
      refine awaited_concat_ne_zero hcount hawaited ?_
      rintro response rfl
      have hcomplete := hlater later response [] rfl
      rwa [hassoc] at hcomplete
    obtain ⟨hqueue, hsilent⟩ := perform_of_not_ready (follows_after true (earlier ++ later))
      (ready_eq_false_iff.2 ⟨rfl, hstill⟩)
    rw [hassoc, after_concat, answers_concat, received_concat, answersTo, hqueue, hsilent, hheld,
      hanswers]
    exact ⟨hstill, List.append_assoc _ _ _, List.append_nil _⟩

end Registry

end ClusterConsole
