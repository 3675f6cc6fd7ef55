/-
The records of a store stay in ascending order of their keys, whatever is asked of it
(`ordered_call`, and `Reachable.ordered` along a run). In such a store a key finds the only record
it belongs to, so what a deletion replies is exactly what is gone after it (`mem_remove`).
-/
import ClusterConsole.Proofs.Ascending
import ClusterConsole.Proofs.Except
import ClusterConsole.RecordService

namespace ClusterConsole

instance : Std.TransOrd DataType := inferInstanceAs (Std.TransCmp (compareOn DataType.rank))

instance : Std.TransOrd RecordKey :=
  inferInstanceAs
    (Std.TransCmp (compareLex (compareOn RecordKey.dataType) (compareOn RecordKey.id)))

namespace Store

/-- The records are in ascending order of their keys, so no two of them share one. -/
def Ordered (s : Store) : Prop := Ascending.Ascends Record.key s.records

theorem ordered_empty : empty.Ordered := List.Pairwise.nil

theorem ordered_erase {s : Store} (h : s.Ordered) (t : DataType) (id : UInt64) :
    (s.erase t id).Ordered := Ascending.ascends_erase h

theorem ordered_remove {s : Store} (h : s.Ordered) (t : DataType) (ids : List UInt64) :
    (s.remove t ids).1.Ordered := by
  induction ids generalizing s with
  | nil => exact h
  | cons id ids ih => exact ih (ordered_erase h t id)

theorem nextId_remove (s : Store) (t : DataType) (ids : List UInt64) :
    (s.remove t ids).1.nextId = s.nextId := by
  induction ids generalizing s with
  | nil => rfl
  | cons id ids ih => exact ih (s.erase t id)

theorem mem_of_mem_remove {s : Store} {t : DataType} {ids : List UInt64} {r : Record}
    (h : r ∈ (s.remove t ids).1.records) : r ∈ s.records := by
  induction ids generalizing s with
  | nil => exact h
  | cons id ids ih => exact (Ascending.mem_erase.1 (ih (s := s.erase t id) h)).1

/-- What a deletion gives back is what was there before it and is not there after it. -/
theorem mem_remove {s : Store} (h : s.Ordered) {t : DataType} {ids : List UInt64} {r : Record} :
    r ∈ (s.remove t ids).2 ↔ r ∈ s.records ∧ r ∉ (s.remove t ids).1.records := by
  induction ids generalizing s with
  | nil => simp [remove]
  | cons id ids ih =>
    have ih := ih (ordered_erase h t id)
    have hfind : s.get? t id = some r ↔ r ∈ s.records ∧ compare r.key ⟨t, id⟩ = .eq :=
      Ascending.find?_eq_some_iff h
    have hmem : r ∈ (s.erase t id).records ↔ r ∈ s.records ∧ compare r.key ⟨t, id⟩ ≠ .eq :=
      Ascending.mem_erase
    -- a record with the key is given back at once, any other is left to the remaining ids
    show r ∈ (s.get? t id).toList ++ ((s.erase t id).remove t ids).2 ↔
      r ∈ s.records ∧ r ∉ ((s.erase t id).remove t ids).1.records
    rw [List.mem_append, Option.mem_toList, hfind, ih, hmem]
    by_cases hkey : compare r.key ⟨t, id⟩ = .eq
    · have hgone : r ∉ ((s.erase t id).remove t ids).1.records := by
        intro hr
        exact (hmem.1 (mem_of_mem_remove hr)).2 hkey
      simp [hkey, hgone]
    · simp [hkey]

/-- A deletion takes effect if each of its ids has a record. -/
theorem apply_delete (s : Store) (t : DataType) (ids : List UInt64) :
    s.apply (.delete t ids) =
      if (ids.filter fun id => (s.get? t id).isNone) = [] then
        ((s.remove t ids).1, .records (s.remove t ids).2)
      else (s, .failure (missingMessage t (ids.filter fun id => (s.get? t id).isNone))) := rfl

/-- A request leaves the records in order. -/
theorem ordered_apply {s : Store} (h : s.Ordered) (r : Request) : (s.apply r).1.Ordered := by
  cases r with
  | getAll t => exact h
  | getByIds t ids active => exact h
  | add t active data => exact Ascending.pairwise_insert _ _ h
  | delete t ids =>
    rw [apply_delete]
    split_ifs
    · exact ordered_remove h t ids
    · exact h

/-- Whatever envelope it is sent, the store leaves its records in order. -/
theorem ordered_call {s : Store} (h : s.Ordered) (e : Envelope) : (s.call e).1.Ordered := by
  unfold call
  split
  · exact ordered_apply h _
  · exact h
  · exact h

/-- What a new store can have become, by requests and by envelopes of any content. -/
inductive Reachable : Store → Prop
  | new : Reachable empty
  | apply {s : Store} (h : Reachable s) (r : Request) : Reachable (s.apply r).1
  | call {s : Store} (h : Reachable s) (e : Envelope) : Reachable (s.call e).1

theorem Reachable.ordered {s : Store} (h : s.Reachable) : s.Ordered := by
  induction h with
  | new => exact ordered_empty
  | apply _ r ih => exact ordered_apply ih r
  | call _ e ih => exact ordered_call ih e

end Store

end ClusterConsole
