/-
What a registry makes of the responses of handlers, in whatever order they arrive. Responses with
disjoint paths lead to the same entries in every order (`takeAll_of_perm`), and each response counts
the awaited handlers down (`awaited_arrivals`). If the entries are the same at every moment at which
the registry is ready, then every answer is given from those (`answers_of_entries`).
-/
import ClusterConsole.Proofs.Ascending
import ClusterConsole.Proofs.Console.Wiring
import ClusterConsole.Proofs.Registry.Barrier
import ClusterConsole.Registry.Startup

namespace ClusterConsole

/-! ## Registrations of different paths -/

theorem CommandPath.compare_eq_iff {p q : CommandPath} : compare p q = .eq ↔ p = q := by
  constructor
  · intro h
    have hsegments : p.segments = q.segments := Std.LawfulEqCmp.eq_of_compare h
    cases p
    cases q
    cases hsegments
    rfl
  · rintro rfl
    exact Std.ReflCmp.compare_self

namespace Catalog

variable {c : Catalog} {as bs : List Registration}

/-- Registrations for different paths may be added in either order. -/
theorem add_comm (c : Catalog) {a b : Registration} (h : a.path ≠ b.path) :
    (c.add a).add b = (c.add b).add a := by
  have hne : compare a.path b.path ≠ .eq := fun heq => h (CommandPath.compare_eq_iff.1 heq)
  unfold add
  simp only [Ascending.insert_comm c.ascends hne]

theorem addAll_add (c : Catalog) {b : Registration} (h : ∀ a ∈ as, a.path ≠ b.path) :
    (c.add b).addAll as = (c.addAll as).add b := by
  induction as generalizing c with
  | nil => rfl
  | cons a as ih =>
    show ((c.add b).add a).addAll as = ((c.add a).addAll as).add b
    rw [← add_comm c (h a (by simp)), ih _ fun a' ha' => h a' (by simp [ha'])]

/-- Lists of registrations that share no path may be added in either order. -/
theorem addAll_comm (c : Catalog) (h : ∀ a ∈ as, ∀ b ∈ bs, a.path ≠ b.path) :
    (c.addAll as).addAll bs = (c.addAll bs).addAll as := by
  induction bs generalizing c with
  | nil => rfl
  | cons b bs ih =>
    show ((c.addAll as).add b).addAll bs = ((c.add b).addAll bs).addAll as
    rw [← addAll_add c fun a ha => h a ha b (by simp)]
    exact ih (c.add b) fun a ha b' hb' => h a ha b' (by simp [hb'])

/-- Responses that share no path lead to the same entries in every order. -/
theorem takeAll_of_perm (c : Catalog) {rs rs' : List Response} (hperm : rs.Perm rs')
    (h : rs.Pairwise fun r r' => ∀ a ∈ r.catalog.entries, ∀ b ∈ r'.catalog.entries,
      a.path ≠ b.path) : c.takeAll rs = c.takeAll rs' := by
  have hcomm : rs.Pairwise fun r r' => ∀ c : Catalog,
      (c.addAll r.catalog.entries).addAll r'.catalog.entries =
        (c.addAll r'.catalog.entries).addAll r.catalog.entries :=
    h.imp fun hdisjoint c => addAll_comm c hdisjoint
  have hsymm : Std.Symm fun r r' : Response => ∀ c : Catalog,
      (c.addAll r.catalog.entries).addAll r'.catalog.entries =
        (c.addAll r'.catalog.entries).addAll r.catalog.entries :=
    ⟨fun r r' h c => (h c).symm⟩
  exact hperm.foldl_eq' (hcomm.forall_of_forall fun r _ c => rfl) c

end Catalog

/-! ## Messages -/

variable {ρ : Type}

/-- The response that the message brings. -/
def RegistryMessage.response? : RegistryMessage ρ → Option Response
  | .registered response => some response
  | .query _ _ => none

/-- The responses among the messages, in the order of arrival. -/
def responses (ms : List (RegistryMessage ρ)) : List Response :=
  ms.filterMap RegistryMessage.response?

/-- What is done with a registry: it asks handlers for their registrations, and messages arrive. -/
def arrivals (count : UInt64) (ms : List (RegistryMessage ρ)) : List (Operation ρ) :=
  .expect count :: ms.map .deliver

theorem arrivals_concat (count : UInt64) (ms : List (RegistryMessage ρ)) (m : RegistryMessage ρ) :
    arrivals count (ms ++ [m]) = arrivals count ms ++ [.deliver m] := by
  simp [arrivals]

@[simp] theorem responses_append (ms ms' : List (RegistryMessage ρ)) :
    responses (ms ++ ms') = responses ms ++ responses ms' := List.filterMap_append

@[simp] theorem responses_registered (rs : List Response) :
    responses (rs.map (RegistryMessage.registered (ρ := ρ))) = rs := by
  rw [responses, List.filterMap_map]
  exact List.filterMap_some

theorem responses_singleton (m : RegistryMessage ρ) : responses [m] = m.response?.toList := by
  cases m <;> rfl

theorem received_append (ops ops' : List (Operation ρ)) :
    received (ops ++ ops') = received ops ++ received ops' := List.filterMap_append

theorem received_arrivals (count : UInt64) (ms : List (RegistryMessage ρ)) :
    received (arrivals count ms) = received (ms.map .deliver) := rfl

theorem tallied_arrivals (count : UInt64) (ms : List (RegistryMessage ρ)) :
    tallied (arrivals count ms) = count.toNat - (responses ms).length := by
  induction ms using List.reverseRecOn with
  | nil => exact Nat.zero_add _
  | append_singleton ms m ih =>
    rw [arrivals_concat, tallied_concat, ih, responses_append, responses_singleton,
      List.length_append]
    cases m with
    | registered response =>
      show count.toNat - (responses ms).length - 1 = count.toNat - ((responses ms).length + 1)
      omega
    | query q a => rfl

/-- Messages that arrive make no count go beyond 64 bits. -/
theorem countable_arrivals (count : UInt64) (ms : List (RegistryMessage ρ)) :
    Countable (arrivals count ms) := by
  intro earlier hprefix
  have hlt := count.toNat_lt
  rcases List.prefix_cons_iff.1 hprefix with rfl | ⟨mid, rfl, hmid⟩
  · exact Nat.pos_of_ne_zero (by decide)
  · obtain ⟨ms', -, rfl⟩ := List.prefix_map_iff.1 hmid
    have htallied := tallied_arrivals count ms'
    rw [arrivals] at htallied
    omega

/-- Each response counts the awaited handlers down. -/
theorem awaited_arrivals (count : UInt64) (ms : List (RegistryMessage ρ)) :
    (awaited (arrivals count ms)).toNat = count.toNat - (responses ms).length := by
  rw [toNat_awaited (countable_arrivals count ms), tallied_arrivals]

/-- The entries are those of the responses that have arrived. -/
theorem entries_arrivals (count : UInt64) (ms : List (RegistryMessage ρ)) :
    entries (arrivals count ms) = Catalog.empty.takeAll (responses ms) := by
  induction ms using List.reverseRecOn with
  | nil => rfl
  | append_singleton ms m ih =>
    rw [arrivals_concat, entries_concat, ih, responses_append, responses_singleton,
      Catalog.takeAll, Catalog.takeAll, List.foldl_append]
    cases m <;> rfl

namespace Registry

theorem handleAll_eq_performAll (r : Registry ρ) (ms : List (RegistryMessage ρ)) :
    r.handleAll ms = r.performAll (ms.map .deliver) := by
  induction ms generalizing r with
  | nil => rfl
  | cons m ms ih =>
    simp only [handleAll, List.map_cons, performAll, perform, ih]

/-- Starting a registry asks all handlers and takes the responses of those that answer. -/
theorem started_eq_after (b : Bool) (conducts : List Conduct) :
    (started b conducts : Registry ρ) = after b (arrivals conducts.length
      ((conducts.filterMap Conduct.response?).map .registered)) := by
  rw [started, ← List.map_filterMap, handleAll_eq_performAll]
  rfl

/-- Answers go to the addresses of their queries, in order. -/
theorem addresses_of_answers {ops : List (Operation ρ)} {answered : List (Query × ρ)}
    {given : List (ρ × Response)} (h : List.Forall₂ (Answers ops) answered given) :
    given.map Prod.fst = answered.map Prod.snd := by
  induction h with
  | nil => rfl
  | cons hgiven _ ih =>
    rw [List.map_cons, List.map_cons, ih, hgiven.address]

/-- If the entries are `c` whenever the registry is ready, then what has been answered has been
answered from `c`. -/
theorem answers_of_entries {b : Bool} {c : Catalog} {earlier later : List (Operation ρ)}
    (hcount : Countable (earlier ++ later))
    (h : ∀ mid, mid <+: later → ready b (earlier ++ mid) = true → entries (earlier ++ mid) = c) :
    ∃ answered, answered ++ (after b (earlier ++ later)).held =
        (after b earlier).held ++ received later ∧
      answers b (earlier ++ later) = answers b earlier ++ answered.map (answerFrom c) := by
  induction later using List.reverseRecOn with
  | nil => exact ⟨[], by simp [received], by simp⟩
  | append_singleton later op ih =>
    have hshorter : Countable (earlier ++ later) :=
      hcount.mono (by rw [← List.append_assoc]; exact List.prefix_append _ _)
    obtain ⟨answered, hall, hgiven⟩ :=
      ih hshorter fun mid hmid => h mid (hmid.trans (List.prefix_append _ _))
    have hfollows := follows_after b (earlier ++ later)
    have hqueues := queues_after b (earlier ++ later)
    rw [← List.append_assoc, after_concat, answers_concat, answersTo, received_concat,
      ← List.append_assoc, ← hall, hgiven]
    -- an operation answers nothing, or all queries that are held, or the query that it brings
    cases op with
    | expect count =>
      exact ⟨answered, by simp [perform, expect, Operation.query?], by simp [perform]⟩
    | register response =>
      exact ⟨answered, by simp [perform, register, Operation.query?], by simp [perform]⟩
    | deliver m =>
      cases m with
      | registered response =>
        rw [perform_registered hfollows]
        split_ifs with hc
        · have hentries := h _ List.prefix_rfl (by rw [← List.append_assoc]; exact hc.2)
          rw [← List.append_assoc] at hentries
          refine ⟨answered ++ (after b (earlier ++ later)).held, by simp [Operation.query?], ?_⟩
          simp only [hentries]
          rw [List.map_append, List.append_assoc]
        · exact ⟨answered, by simp [Operation.query?], by simp⟩
      | query q a =>
        rw [perform_query hfollows]
        split_ifs with hr
        · have hentries := h later (List.prefix_append _ _) hr
          refine ⟨answered ++ [(q, a)], ?_, ?_⟩
          · simp [hqueues.held_eq_nil hshorter hr, Operation.query?]
          · simp [hentries]
        · exact ⟨answered, by simp [Operation.query?], by simp⟩

end Registry

end ClusterConsole
