/-
A deletion takes effect for all of its ids or for none of them (`delete_all_or_nothing`). The ids
are gone through twice, once to see what is missing and once to take records away; the second time
an id that comes again finds nothing any more (`get?_remove`), so each record is given back once,
in the order in which the ids first occur (`remove_eq`).
-/
import ClusterConsole.Proofs.Store.History

namespace ClusterConsole.Store

variable {s : Store} {t : DataType} {id : UInt64} {ids : List UInt64}

/-- There is a record of the type with the id. -/
def Has (s : Store) (t : DataType) (id : UInt64) : Prop :=
  ∃ r ∈ s.records, r.dataType = t ∧ r.id = id

instance (s : Store) (t : DataType) (id : UInt64) : Decidable (s.Has t id) :=
  inferInstanceAs (Decidable (∃ r ∈ s.records, r.dataType = t ∧ r.id = id))

theorem get?_eq_none_iff (h : s.Ordered) : s.get? t id = none ↔ ¬ s.Has t id := by
  rw [Option.eq_none_iff_forall_ne_some]
  constructor
  · rintro hnone ⟨r, hr⟩
    exact hnone r ((get?_eq_some_iff h).2 hr)
  · intro hnot r hr
    exact hnot ⟨r, (get?_eq_some_iff h).1 hr⟩

/-- The ids that a deletion misses. -/
theorem filter_isNone_get? (h : s.Ordered) (t : DataType) (ids : List UInt64) :
    (ids.filter fun id => (s.get? t id).isNone) = ids.filter fun id => ¬ s.Has t id := by
  refine List.filter_congr fun id _ => ?_
  rw [Bool.eq_iff_iff, Option.isNone_iff_eq_none, get?_eq_none_iff h, decide_eq_true_iff]

/-! ## Taking records away -/

theorem remove_append (s : Store) (t : DataType) (ids ids' : List UInt64) :
    s.remove t (ids ++ ids') =
      (((s.remove t ids).1.remove t ids').1,
        (s.remove t ids).2 ++ ((s.remove t ids).1.remove t ids').2) := by
  induction ids generalizing s with
  | nil => rfl
  | cons id ids ih =>
    rw [List.cons_append, remove, remove]
    dsimp only
    rw [ih, List.append_assoc]

/-- What is left finds what it has found before, but for the ids that have been gone through. -/
theorem get?_remove (h : s.Ordered) :
    (s.remove t ids).1.get? t id = if id ∈ ids then none else s.get? t id := by
  ext r
  rw [get?_eq_some_iff (ordered_remove h t ids), records_remove, List.mem_filter]
  split_ifs with hid
  · simp only [iff_false]
    rintro ⟨⟨-, hkept⟩, rfl, rfl⟩
    simp [hid] at hkept
  · rw [get?_eq_some_iff h]
    constructor
    · rintro ⟨⟨hr, -⟩, hkey⟩
      exact ⟨hr, hkey⟩
    · rintro ⟨hr, rfl, rfl⟩
      exact ⟨⟨hr, by simp [hid]⟩, rfl, rfl⟩

/-- Each record is given back once, where its id occurs first. -/
theorem remove_eq (h : s.Ordered) (t : DataType) (ids : List UInt64) :
    (s.remove t ids).2 = ids.eraseDups.filterMap (s.get? t) := by
  -- on the last id, which finds a record unless it has occurred before
  induction ids using List.reverseRecOn with
  | nil => rfl
  | append_singleton ids id ih =>
    have hlast : ((s.remove t ids).1.remove t [id]).2 = ((s.remove t ids).1.get? t id).toList :=
      List.append_nil _
    rw [remove_append, ih, hlast, get?_remove h, List.eraseDups_append, List.filterMap_append]
    by_cases hid : id ∈ ids
    · have hnone : [id].removeAll ids = [] := by simp [List.removeAll, hid]
      rw [if_pos hid, hnone]
      rfl
    · have hnew : [id].removeAll ids = [id] := by simp [List.removeAll, hid]
      rw [if_neg hid, hnew]
      show _ = _ ++ [id].filterMap (s.get? t)
      cases hfound : s.get? t id <;> simp [hfound]

/-- What is left are the records of other types and those with other ids. -/
theorem fst_remove (s : Store) (t : DataType) (ids : List UInt64) :
    (s.remove t ids).1 =
      ⟨s.nextId, s.records.filter fun r => ¬ (r.dataType = t ∧ r.id ∈ ids)⟩ := by
  have hrecords : (s.remove t ids).1.records =
      s.records.filter fun r => ¬ (r.dataType = t ∧ r.id ∈ ids) := by
    rw [records_remove]
    refine List.filter_congr fun r _ => ?_
    rw [Bool.eq_iff_iff]
    simp [@eq_comm _ t]
  rw [← hrecords, ← nextId_remove s t ids]

/-! ## All or nothing -/

/-- What a deletion comes to. -/
structure AllOrNothing (s : Store) (t : DataType) (ids : List UInt64) : Prop where
  /-- If some ids have no record of the type, all of these are named, as often as they are given and
  in that order, and nothing changes. -/
  nothing : (∃ id ∈ ids, ¬ s.Has t id) → s.apply (.delete t ids) =
    (s, .failure ("no " ++ t.name ++ " with id " ++ Text.join ", "
      ((ids.filter fun id => ¬ s.Has t id).map fun id => Text.ofNat id.toNat)))
  /-- Otherwise the records with the ids are given back as they were stored, each of them once and
  in the order in which the ids first occur. All other records stay, and so does the next id. -/
  all : (∀ id ∈ ids, s.Has t id) → ∃ rs, s.apply (.delete t ids) =
      (⟨s.nextId, s.records.filter fun r => ¬ (r.dataType = t ∧ r.id ∈ ids)⟩, .records rs) ∧
    rs.map Record.id = ids.eraseDups ∧ ∀ r ∈ rs, r ∈ s.records ∧ r.dataType = t

theorem apply_delete_of_missing (h : s.Ordered) (hmissing : ∃ id ∈ ids, ¬ s.Has t id) :
    s.apply (.delete t ids) =
      (s, .failure (missingMessage t (ids.filter fun id => ¬ s.Has t id))) := by
  obtain ⟨id, hid, hnot⟩ := hmissing
  rw [apply_delete, filter_isNone_get? h, if_neg]
  intro hnil
  exact List.filter_eq_nil_iff.1 hnil id hid (decide_eq_true hnot)

theorem apply_delete_of_has (h : s.Ordered) (hall : ∀ id ∈ ids, s.Has t id) :
    s.apply (.delete t ids) = ((s.remove t ids).1, .records (s.remove t ids).2) := by
  rw [apply_delete, filter_isNone_get? h, if_pos]
  exact List.filter_eq_nil_iff.2 fun id hid => by simpa using hall id hid

/-- A deletion takes effect for all of its ids or for none, whatever the store has been through. -/
theorem delete_all_or_nothing (h : s.Reachable) (t : DataType) (ids : List UInt64) :
    AllOrNothing s t ids := by
  have hordered := h.ordered
  refine ⟨apply_delete_of_missing hordered, fun hall => ⟨(s.remove t ids).2, ?_, ?_, ?_⟩⟩
  · rw [apply_delete_of_has hordered hall, fst_remove]
  · -- none of the distinct ids fails to find its record
    have hid : ∀ id ∈ ids.eraseDups, (s.get? t id).map Record.id = some id := by
      intro id hid
      obtain ⟨r, hr⟩ := hall id (List.mem_eraseDups.1 hid)
      rw [(get?_eq_some_iff hordered).2 hr, Option.map_some, hr.2.2]
    rw [remove_eq hordered, List.map_filterMap, List.filterMap_congr hid, List.filterMap_some]
  · intro r hr
    rw [remove_eq hordered, List.mem_filterMap] at hr
    obtain ⟨id, -, hr⟩ := hr
    obtain ⟨hmem, ht, -⟩ := (get?_eq_some_iff hordered).1 hr
    exact ⟨hmem, ht⟩

/-- With a record under the id 2 and companies under 1 and 3, the companies 2 and 9 are missing, the
first of them twice; and the companies 3, 1 and 3 again are two. -/
theorem delete_all_or_nothing_repeats :
    let s := (((empty.apply (.add .company true .null)).1.apply (.add .record false .null)).1.apply
      (.add .company true (.text "x"))).1
    s.Reachable ∧
      s.apply (.delete .company [2, 3, 9, 2]) = (s, .failure "no company with id 2, 9, 2") ∧
      ∃ rs, s.apply (.delete .company [3, 1, 3]) =
          (⟨4, [⟨2, .record, false, .null⟩]⟩, .records rs) ∧
        rs.map Record.id = [3, 1] ∧ ∀ r ∈ rs, r ∈ s.records ∧ r.dataType = .company := by
  intro s
  have hreachable : s.Reachable := .apply (.apply (.apply .new _) _) _
  have hone : s.Has .company 1 := by decide
  have htwo : ¬ s.Has .company 2 := by decide
  have hthree : s.Has .company 3 := by decide
  exact ⟨hreachable,
    (delete_all_or_nothing hreachable .company [2, 3, 9, 2]).nothing ⟨2, List.mem_cons_self, htwo⟩,
    (delete_all_or_nothing hreachable .company [3, 1, 3]).all (by simp [hone, hthree])⟩

end ClusterConsole.Store
