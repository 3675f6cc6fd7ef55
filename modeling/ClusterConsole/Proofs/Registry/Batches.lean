/-
A registry holds the last registration for each path (`last_writer_wins`), however registrations
are cut into responses. A response already drops what is registered again in it, and the registry
what is registered again by a later one; both come to the same as one long list
(`Catalog.addAll_ofList`, `catalog_of_brings`). A look-up of several paths finds what they find
one by one (`union_select`).
-/
import ClusterConsole.Proofs.Registry.Abbreviation

namespace ClusterConsole

open Ascending (IsLast)

/-! ## Catalogs of lists -/

namespace Catalog

variable {c d : Catalog} {e : Registration} {rs : List Registration}

theorem ext_of_mem (h : ∀ e, e ∈ c.entries ↔ e ∈ d.entries) : c = d := by
  have hentries : c.entries = d.entries := c.ascends.ext d.ascends h
  cases c
  cases d
  cases hentries
  rfl

theorem entries_addAll (c : Catalog) (rs : List Registration) :
    (c.addAll rs).entries = Ascending.insertAll Registration.path c.entries rs := by
  induction rs generalizing c with
  | nil => rfl
  | cons r rs ih => exact ih (c.add r)

theorem mem_addAll_iff :
    e ∈ (c.addAll rs).entries ↔ IsLast Registration.path e rs ∨
      e ∈ c.entries ∧ ∀ e' ∈ rs, compare e'.path e.path ≠ .eq := by
  rw [entries_addAll, Ascending.mem_insertAll_iff c.ascends]

theorem mem_ofList_iff : e ∈ (ofList rs).entries ↔ IsLast Registration.path e rs := by
  rw [ofList, entries_addAll]
  exact Ascending.mem_ofList_iff

theorem isLast_entries (c : Catalog) :
    IsLast Registration.path e c.entries ↔ e ∈ c.entries :=
  Ascending.isLast_iff_mem fun _ hx _ hy heq => Ascending.eq_of_compare_eq c.ascends hx hy heq

/-- Only the last registration for a path is left of a list, and only it can take over. -/
theorem addAll_ofList (c : Catalog) (rs : List Registration) :
    c.addAll (ofList rs).entries = c.addAll rs := by
  refine ext_of_mem fun e => ?_
  rw [mem_addAll_iff, mem_addAll_iff, isLast_entries, mem_ofList_iff]
  refine or_congr_right (and_congr_right fun _ => ⟨fun h e' he' heq => ?_, fun h e' he' => ?_⟩)
  · obtain ⟨y, hy, hye⟩ := Ascending.exists_isLast Registration.path he'
    exact h y (mem_ofList_iff.2 hy) (Std.TransCmp.eq_trans hye heq)
  · exact h e' (mem_ofList_iff.1 he').mem

theorem ofList_append (rs rs' : List Registration) :
    ofList (rs ++ rs') = (ofList rs).addAll rs' := List.foldl_append

theorem ofList_flatMap (batches : List (List Registration)) :
    ofList (batches.flatMap fun rs => (ofList rs).entries) = ofList batches.flatten := by
  induction batches using List.reverseRecOn with
  | nil => rfl
  | append_singleton batches rs ih =>
    rw [List.flatMap_append, List.flatten_append, List.flatMap_singleton, List.flatten_singleton,
      ofList_append, ofList_append, addAll_ofList, ih]

/-- The catalog of entries that a catalog already has in order. -/
theorem ofList_entries (c : Catalog) : ofList c.entries = c :=
  ext_of_mem fun _ => mem_ofList_iff.trans c.isLast_entries

/-- What several paths select is what they select one by one. -/
theorem union_select (c : Catalog) (queries : List CommandPath) :
    c.select queries = ofList (queries.flatMap fun q => (c.select [q]).entries) := by
  refine ext_of_mem fun e => ?_
  have hsame : ∀ x ∈ queries.flatMap fun q => (c.select [q]).entries,
      ∀ y ∈ queries.flatMap fun q => (c.select [q]).entries,
        compare x.path y.path = .eq → x = y := by
    intro x hx y hy heq
    obtain ⟨p, -, hx⟩ := List.mem_flatMap.1 hx
    obtain ⟨q, -, hy⟩ := List.mem_flatMap.1 hy
    exact Ascending.eq_of_compare_eq c.ascends (mem_of_mem_select hx) (mem_of_mem_select hy) heq
  rw [mem_ofList_iff, Ascending.isLast_iff_mem hsame]
  simp only [select, List.mem_flatMap, List.mem_filter, List.any_cons, List.any_nil, Bool.or_false,
    List.any_eq_true]
  constructor
  · rintro ⟨he, q, hq, hsel⟩
    exact ⟨q, hq, he, hsel⟩
  · rintro ⟨q, hq, he, hsel⟩
    exact ⟨he, q, hq, hsel⟩

end Catalog

/-! ## Registrations in batches -/

variable {ρ : Type} {b : Bool} {ops : List (Operation ρ)} {batches : List (List Registration)}

/-- The response that the operation brings. -/
def Operation.response? : Operation ρ → Option Response
  | .expect _ => none
  | .register response => some response
  | .deliver m => m.response?

/-- The operations bring the lists of registrations one after another, each in a response of its
own, by whichever way and with whatever else in between. -/
def Brings (ops : List (Operation ρ)) (batches : List (List Registration)) : Prop :=
  ops.filterMap Operation.response? = batches.map Response.ofList

theorem flatMap_registrations (ops : List (Operation ρ)) :
    ops.flatMap Operation.registrations =
      (ops.filterMap Operation.response?).flatMap fun r => r.catalog.entries := by
  induction ops with
  | nil => rfl
  | cons op ops ih =>
    rw [List.flatMap_cons, ih]
    cases op with
    | expect count => rfl
    | register response => rfl
    | deliver m => cases m <;> rfl

namespace Registry

/-- Whatever responses the registrations come in, the registry has the catalog of their list. -/
theorem catalog_of_brings (h : Brings ops batches) :
    (after b ops).catalog = Catalog.ofList batches.flatten := by
  rw [(follows_after b ops).catalog, entries, flatMap_registrations, h, List.flatMap_map]
  exact Catalog.ofList_flatMap batches

/-- Put in directly, registrations change nothing but the catalog. -/
theorem after_registers (b : Bool) (batches : List (List Registration)) :
    (after b (batches.map fun rs => .register (Response.ofList rs)) : Registry ρ) =
      { new b with catalog := Catalog.ofList batches.flatten } := by
  induction batches using List.reverseRecOn with
  | nil => rfl
  | append_singleton batches rs ih =>
    rw [List.map_append, List.map_singleton, after_concat, ih, List.flatten_append,
      List.flatten_singleton, Catalog.ofList_append, ← Catalog.addAll_ofList _ rs]
    rfl

/-- All registrations, as the registry lists them. -/
def listed (r : Registry ρ) : List Registration := (r.answer .list).catalog.entries

/-- What a look-up finds. -/
structure ExactUnion (r : Registry ρ) (l : Lookup) : Prop where
  /-- The answer has those of the listed registrations that one of the paths selects, in the order
  of the list. -/
  entries : (r.answer (.lookup l)).catalog.entries =
    r.listed.filter fun e => ∃ p ∈ l.paths, e.path.selectedBy p = true
  /-- Collecting them in a response of their own changes nothing, and the answer carries the line of
  the look-up. -/
  response : r.answer (.lookup l) = { Response.ofList
    (r.listed.filter fun e => ∃ p ∈ l.paths, e.path.selectedBy p = true) with origin := l.origin }
  /-- The order of the paths does not matter, nor how often they come. -/
  paths : ∀ l' : Lookup, (∀ p, p ∈ l'.paths ↔ p ∈ l.paths) → l'.origin = l.origin →
    r.answer (.lookup l') = r.answer (.lookup l)
  /-- The answer is the union of what the paths find one by one. -/
  union : (r.answer (.lookup l)).catalog = Catalog.ofList (l.paths.flatMap r.found)

theorem exactUnion (r : Registry ρ) (l : Lookup) : ExactUnion r l := by
  have hentries : (r.answer (.lookup l)).catalog.entries =
      r.listed.filter fun e => ∃ p ∈ l.paths, e.path.selectedBy p = true := by
    refine List.filter_congr fun e _ => ?_
    rw [Bool.eq_iff_iff, List.any_eq_true, decide_eq_true_iff]
  refine ⟨hentries, ?_, fun l' hpaths horigin => ?_, r.catalog.union_select l.paths⟩
  · have hcatalog := (r.answer (.lookup l)).catalog.ofList_entries
    rw [hentries] at hcatalog
    rw [Response.ofList, hcatalog]
    rfl
  · have hselect : r.catalog.select l'.paths = r.catalog.select l.paths := by
      refine Catalog.ext_of_mem fun e => ?_
      simp only [Catalog.select, List.mem_filter, List.any_eq_true, hpaths]
    show (⟨r.catalog.select l'.paths, l'.origin⟩ : Response) = ⟨r.catalog.select l.paths, l.origin⟩
    rw [hselect, horigin]

/-- What a registry holds that has been brought registrations in batches. -/
structure LastWriterWins (b : Bool) (ops : List (Operation ρ))
    (batches : List (List Registration)) : Prop where
  /-- The list is in ascending order of paths, none of which comes twice. -/
  ascends : (after b ops).listed.Pairwise fun e e' => compare e.path e'.path = .lt
  /-- It has the registrations after which there is no other for the same path. -/
  last : ∀ e, e ∈ (after b ops).listed ↔ ∃ earlier later,
    batches.flatten = earlier ++ e :: later ∧ ∀ e' ∈ later, e'.path ≠ e.path
  /-- Every path that has been registered has one of them. -/
  one : ∀ e ∈ batches.flatten, ∃! e', e' ∈ (after b ops).listed ∧ e'.path = e.path
  /-- Other batches of the same registrations lead to the same catalog. -/
  split : ∀ (b' : Bool) (ops' : List (Operation ρ)) (batches' : List (List Registration)),
    Brings ops' batches' → batches'.flatten = batches.flatten →
      (after b' ops').catalog = (after b ops).catalog
  /-- Put in directly, they lead to the same registry altogether. -/
  direct : ∀ batches' : List (List Registration), batches'.flatten = batches.flatten →
    (after b (batches'.map fun rs => .register (Response.ofList rs)) : Registry ρ) =
      after b (batches.map fun rs => .register (Response.ofList rs))
  /-- Look-ups are answered with exactly what their paths select. -/
  lookup : ∀ l, ExactUnion (after b ops) l

/-- The last registration for a path stays, whatever batches the registrations come in and whatever
else is done with the registry; and look-ups are exact unions. -/
theorem last_writer_wins (h : Brings ops batches) : LastWriterWins b ops batches := by
  have hcatalog : (after b ops).catalog = Catalog.ofList batches.flatten := catalog_of_brings h
  have hmem : ∀ e, e ∈ (after b ops).listed ↔ IsLast Registration.path e batches.flatten := by
    intro e
    show e ∈ (after b ops).catalog.entries ↔ _
    rw [hcatalog, Catalog.mem_ofList_iff]
  refine ⟨(after b ops).catalog.ascends, ?_, ?_, ?_, ?_, exactUnion _⟩
  · intro e
    simp only [hmem, IsLast, ne_eq, CommandPath.compare_eq_iff]
  · intro e he
    obtain ⟨e', he', hpath⟩ := Ascending.exists_isLast Registration.path he
    refine ⟨e', ⟨(hmem e').2 he', CommandPath.compare_eq_iff.1 hpath⟩, ?_⟩
    rintro e'' ⟨he'', hpath''⟩
    refine Ascending.eq_of_compare_eq (after b ops).catalog.ascends he'' ((hmem e').2 he') ?_
    rw [CommandPath.compare_eq_iff, hpath'', CommandPath.compare_eq_iff.1 hpath]
  · intro b' ops' batches' h' hflatten
    rw [catalog_of_brings h', hcatalog, hflatten]
  · intro batches' hflatten
    rw [after_registers, after_registers, hflatten]

/-- Two commands that are registered twice each, one of them twice by the same response: whether the
others come in one response or in two, the later ones stay. -/
theorem last_writer_wins_twice :
    let edit (description : Text) : Registration :=
      ⟨⟨"echo", 0⟩, ⟨["edit"], by decide, by decide⟩, none, some description⟩
    let list (description : Text) : Registration :=
      ⟨⟨"echo", 0⟩, ⟨["cluster", "list"], by decide, by decide⟩, none, some description⟩
    let batches := [[edit "old", list "old", edit "new"], [list "new"]]
    let ops : List (Operation Unit) := [.expect 1, .register (Response.ofList batches[0]),
      .query .list (), .registered (Response.ofList batches[1])]
    Brings ops batches ∧ LastWriterWins true ops batches ∧
      (after true ops).listed = [list "new", edit "new"] ∧
      (after false [.register (Response.ofList [edit "old"]),
        .register (Response.ofList [list "old", edit "new", list "new"])] : Registry Unit).catalog =
          (after true ops).catalog := by
  intro edit list batches ops
  have hbrings : Brings ops batches := rfl
  have hholds := last_writer_wins (b := true) hbrings
  refine ⟨hbrings, hholds, by decide +kernel, ?_⟩
  exact hholds.split false _ [[edit "old"], [list "old", edit "new", list "new"]] rfl rfl

end Registry

end ClusterConsole
