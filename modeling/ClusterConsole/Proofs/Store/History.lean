/-
A store is what its requests have made of it (`equals_history`): the records of a type are those
that additions have returned, less those of later deletions, in the order of addition. Ids are
handed out from 1 on without gaps, through both types, and a deletion gives none of them back.

What a store holds is told from its `History`, the requests that it has run with their replies,
without looking into the store. `Store.Recalls` is what one more request preserves.
-/
import ClusterConsole.Proofs.Store.Order

namespace ClusterConsole

/-! ## Histories -/

/-- Requests with the replies to them, the earliest first. -/
abbrev History := List (Request × Reply)

/-- Whether a request is for adding a record. -/
def Request.isAddition : Request → Bool
  | .add .. => true
  | _ => false

namespace History

/-- The records that a request has been answered with, if it has added them. -/
def returned : Request × Reply → List Record
  | (.add .., .records rs) => rs
  | _ => []

/-- Whether a request has deleted the record of a type with an id. -/
def deletes (t : DataType) (id : UInt64) : Request × Reply → Bool
  | (.delete t' ids, .records _) => t' == t && ids.contains id
  | _ => false

/-- The records that have been added, in the order of addition. -/
def added (h : History) : List Record := h.flatMap returned

/-- The records of a type that have been added and not been deleted later, in the order of
addition. -/
def kept (t : DataType) : History → List Record
  | [] => []
  | e :: later =>
    (if e.1.dataType = t then returned e else []).filter (fun r => !later.any (deletes t r.id)) ++
      kept t later

/-- How many records have been asked to be added. -/
def additions (requests : List Request) : Nat := requests.countP Request.isAddition

theorem added_concat (h : History) (e : Request × Reply) :
    added (h ++ [e]) = added h ++ returned e := by
  simp [added]

theorem additions_concat (requests : List Request) (r : Request) :
    additions (requests ++ [r]) = additions requests + if r.isAddition then 1 else 0 := by
  simp [additions, List.countP_append, List.countP_cons]

/-- One more exchange takes away what it deletes, and then brings what it adds. -/
theorem kept_concat (t : DataType) (h : History) (e : Request × Reply) :
    kept t (h ++ [e]) = (kept t h).filter (fun r => !deletes t r.id e) ++
      if e.1.dataType = t then returned e else [] := by
  induction h with
  | nil => simp [kept]
  | cons e' h ih =>
    have hfilter (rs : List Record) : rs.filter (fun r => !(h ++ [e]).any (deletes t r.id)) =
        (rs.filter fun r => !h.any (deletes t r.id)).filter fun r => !deletes t r.id e := by
      rw [List.filter_filter]
      refine List.filter_congr fun r _ => ?_
      simp [Bool.and_comm]
    rw [List.cons_append, kept, ih, hfilter, kept, List.filter_append, List.append_assoc]

theorem mem_added_of_mem_kept {t : DataType} {h : History} {r : Record} (hr : r ∈ kept t h) :
    r ∈ added h := by
  induction h with
  | nil => cases hr
  | cons e h ih =>
    rw [added, List.flatMap_cons, List.mem_append]
    rw [kept, List.mem_append, List.mem_filter] at hr
    rcases hr with ⟨hr, -⟩ | hr
    · split at hr
      · exact Or.inl hr
      · cases hr
    · exact Or.inr (ih hr)

end History

/-! ## Keys -/

namespace RecordKey

theorem compare_eq_iff {k k' : RecordKey} :
    compare k k' = .eq ↔ k.dataType = k'.dataType ∧ k.id = k'.id := by
  have hrank (t t' : DataType) : compare t.rank t'.rank = .eq ↔ t = t' := by
    cases t <;> cases t' <;> decide
  show compareLex (compareOn dataType) (compareOn id) k k' = .eq ↔ _
  rw [compareLex_eq_eq]
  exact and_congr (hrank _ _) Std.compare_eq_iff_eq

theorem compare_lt_of_id_lt {t : DataType} {i j : UInt64} (h : i < j) :
    compare (⟨t, i⟩ : RecordKey) ⟨t, j⟩ = .lt := by
  show (compare t.rank t.rank).then (compare i j) = .lt
  rw [Std.compare_self, Std.compare_eq_lt.2 h]
  rfl

end RecordKey

namespace Store

/-- The key of a record finds the record, and what a key finds is its own. -/
theorem get?_eq_some_iff {s : Store} (h : s.Ordered) {t : DataType} {id : UInt64} {r : Record} :
    s.get? t id = some r ↔ r ∈ s.records ∧ r.dataType = t ∧ r.id = id := by
  rw [get?, Ascending.find?_eq_some_iff h, RecordKey.compare_eq_iff]
  rfl

/-- A record is looked for among those of its type. -/
theorem get?_eq_find? (s : Store) (t : DataType) (id : UInt64) :
    s.get? t id = (s.ofType t).find? (·.id == id) := by
  rw [get?, Ascending.find?, ofType, List.find?_filter]
  congr 1
  funext r
  rw [Bool.eq_iff_iff, beq_iff_eq, RecordKey.compare_eq_iff]
  simp [Record.key]

theorem mem_ofType {s : Store} {t : DataType} {r : Record} :
    r ∈ s.ofType t ↔ r ∈ s.records ∧ r.dataType = t := by
  simp [ofType]

/-- The records of a type are those between the least and the greatest key of the type. -/
theorem ofType_eq_range (s : Store) (t : DataType) :
    s.ofType t = s.records.filter fun r =>
      (compare (⟨t, 0⟩ : RecordKey) r.key).isLE && (compare r.key ⟨t, -1⟩).isLE := by
  refine List.filter_congr fun r _ => ?_
  have hleast : (compare (0 : UInt64) r.id).isLE = true := by
    rw [Std.isLE_compare]
    exact UInt64.zero_le
  have hgreatest : (compare r.id (-1 : UInt64)).isLE = true := by
    rw [Std.isLE_compare, UInt64.le_iff_toNat_le]
    have := r.id.toNat_lt
    show r.id.toNat ≤ 18446744073709551615
    omega
  -- types come first in the order of keys, so ids matter only where the types agree
  show (r.dataType == t) = (((compare t.rank r.dataType.rank).then (compare 0 r.id)).isLE &&
    ((compare r.dataType.rank t.rank).then (compare r.id (-1))).isLE)
  generalize compare (0 : UInt64) r.id = lower at hleast ⊢
  generalize compare r.id (-1 : UInt64) = upper at hgreatest ⊢
  cases r.dataType with
  | company =>
    cases t with
    | company =>
      show true = (lower.isLE && upper.isLE)
      rw [hleast, hgreatest, Bool.and_self]
    | record => rfl
  | record =>
    cases t with
    | company => rfl
    | record =>
      show true = (lower.isLE && upper.isLE)
      rw [hleast, hgreatest, Bool.and_self]

/-! ## One more request -/

/-- The records after an addition: a new record comes last among those of its type. -/
theorem ofType_insert {s : Store} (h : s.Ordered) {r : Record}
    (hlast : ∀ r' ∈ s.records, r'.id < r.id) (n : UInt64) (t : DataType) :
    ofType ⟨n, Ascending.insert Record.key r s.records⟩ t =
      s.ofType t ++ if r.dataType = t then [r] else [] := by
  have hascends := Ascending.pairwise_insert Record.key r h
  have hnew : ∀ r' ∈ s.records, compare r'.key r.key ≠ .eq := by
    intro r' hr' heq
    have hid : r'.id = r.id := (RecordKey.compare_eq_iff.1 heq).2
    have hlt := hlast r' hr'
    rw [hid] at hlt
    exact absurd hlt (UInt64.lt_irrefl _)
  -- both sides ascend and have the same elements
  have hafter : Ascending.Ascends Record.key
      (ofType ⟨n, Ascending.insert Record.key r s.records⟩ t) := hascends.filter _
  refine hafter.ext ?_ fun x => ?_
  · refine List.pairwise_append.2 ⟨h.filter _, ?_, ?_⟩
    · split_ifs <;> simp
    · intro r' hr' x hx
      obtain ⟨hr', ht⟩ := mem_ofType.1 hr'
      split_ifs at hx with hrt
      · obtain rfl := List.mem_singleton.1 hx
        have hkey : r'.key = ⟨t, r'.id⟩ := by rw [Record.key, ht]
        have hkey' : x.key = ⟨t, x.id⟩ := by rw [Record.key, hrt]
        rw [hkey, hkey']
        exact RecordKey.compare_lt_of_id_lt (hlast r' hr')
      · cases hx
  · have hinsert : x ∈ Ascending.insert Record.key r s.records ↔ x = r ∨ x ∈ s.records := by
      rw [Ascending.mem_insert_iff h]
      exact or_congr_right (and_iff_left_of_imp (hnew x))
    rw [mem_ofType, List.mem_append, mem_ofType, hinsert]
    split_ifs with hrt
    · rw [List.mem_singleton]
      constructor
      · rintro ⟨rfl | hx, ht⟩
        · exact Or.inr rfl
        · exact Or.inl ⟨hx, ht⟩
      · rintro (⟨hx, ht⟩ | rfl)
        · exact ⟨Or.inr hx, ht⟩
        · exact ⟨Or.inl rfl, hrt⟩
    · constructor
      · rintro ⟨rfl | hx, ht⟩
        · exact absurd ht hrt
        · exact Or.inl ⟨hx, ht⟩
      · rintro (⟨hx, ht⟩ | hx)
        · exact ⟨Or.inr hx, ht⟩
        · cases hx

/-- A deletion leaves all records but those of the type with one of the ids. -/
theorem records_remove (s : Store) (t : DataType) (ids : List UInt64) :
    (s.remove t ids).1.records =
      s.records.filter fun r => !(t == r.dataType && ids.contains r.id) := by
  induction ids generalizing s with
  | nil => simp [remove]
  | cons id ids ih =>
    show ((s.erase t id).remove t ids).1.records = _
    rw [ih]
    show (Ascending.erase Record.key ⟨t, id⟩ s.records).filter _ = _
    rw [Ascending.erase, List.filter_filter]
    refine List.filter_congr fun r _ => ?_
    have hkey : (compare r.key ⟨t, id⟩ == .eq) = (t == r.dataType && r.id == id) := by
      rw [Bool.eq_iff_iff, beq_iff_eq, RecordKey.compare_eq_iff, Bool.and_eq_true, beq_iff_eq,
        beq_iff_eq]
      exact and_congr_left' eq_comm
    rw [hkey, List.contains_cons]
    generalize (t == r.dataType) = a
    generalize (r.id == id) = b
    generalize ids.contains r.id = c
    revert a b c
    decide

/-- A reply that reports a failure comes from a store that has not changed, and reading changes
none. -/
theorem apply_eq_self {s : Store} {r : Request}
    (h : (∃ t, r = .getAll t) ∨ (∃ t ids active, r = .getByIds t ids active) ∨
      ∃ message, (s.apply r).2 = .failure message) : (s.apply r).1 = s := by
  cases r with
  | getAll t => rfl
  | getByIds t ids active => rfl
  | add t active data =>
    rcases h with ⟨_, h⟩ | ⟨_, _, _, h⟩ | ⟨_, h⟩ <;> cases h
  | delete t ids =>
    rcases h with ⟨_, h⟩ | ⟨_, _, _, h⟩ | ⟨message, h⟩
    · cases h
    · cases h
    · rw [apply_delete] at h ⊢
      split_ifs at h ⊢
      rfl

/-- What a store has of its history: the records of each type that have been kept, and ids up to
the one that comes next for as many records as have been added. -/
structure Recalls (s : Store) (h : History) : Prop where
  ordered : s.Ordered
  ofType : ∀ t, s.ofType t = h.kept t
  nextId : s.nextId.toNat = (History.additions (h.map Prod.fst)) + 1
  ids : h.added.map (fun r => r.id.toNat) = List.range' 1 (History.additions (h.map Prod.fst))

namespace Recalls

variable {s : Store} {h : History}

theorem mem_added (hs : s.Recalls h) {r : Record} (hr : r ∈ s.records) : r ∈ h.added := by
  have hkept : r ∈ h.kept r.dataType := by
    rw [← hs.ofType]
    exact mem_ofType.2 ⟨hr, rfl⟩
  exact History.mem_added_of_mem_kept hkept

theorem id_lt (hs : s.Recalls h) {r : Record} (hr : r ∈ h.added) : r.id < s.nextId := by
  have hmem : r.id.toNat ∈ h.added.map fun r => r.id.toNat := List.mem_map_of_mem hr
  rw [hs.ids, List.mem_range'_1] at hmem
  rw [UInt64.lt_iff_toNat_lt, hs.nextId]
  omega

/-- No id has been handed out twice, so records that share one are the same. -/
theorem eq_of_id_eq (hs : s.Recalls h) {r r' : Record} (hr : r ∈ h.added) (hr' : r' ∈ h.added)
    (heq : r.id = r'.id) : r = r' := by
  have hnodup : (h.added.map fun r => r.id.toNat).Nodup := by
    rw [hs.ids]
    exact List.nodup_range'
  exact List.inj_on_of_nodup_map hnodup hr hr' (congrArg UInt64.toNat heq)

/-- An exchange that neither adds nor deletes. -/
theorem quiet (hs : s.Recalls h) {e : Request × Reply} (hadd : e.1.isAddition = false)
    (hdelete : ∀ t id, History.deletes t id e = false) : s.Recalls (h ++ [e]) := by
  have hreturned : History.returned e = [] := by
    obtain ⟨r, reply⟩ := e
    cases r with
    | add => cases hadd
    | getAll | getByIds | delete => rfl
  have hcount : History.additions ((h ++ [e]).map Prod.fst) =
      History.additions (h.map Prod.fst) := by
    rw [List.map_append, List.map_singleton, History.additions_concat, hadd]
    rfl
  refine ⟨hs.ordered, fun t => ?_, by rw [hcount]; exact hs.nextId, ?_⟩
  · rw [History.kept_concat, hreturned, ite_self, List.append_nil, hs.ofType]
    exact (List.filter_eq_self.2 fun r _ => by rw [hdelete]; rfl).symm
  · rw [History.added_concat, hreturned, List.append_nil, hcount]
    exact hs.ids

theorem add (hs : s.Recalls h) (t : DataType) (active : Bool) (data : Json)
    (hfew : History.additions (h.map Prod.fst) + 1 < 2 ^ 64 - 1) :
    (s.apply (.add t active data)).1.Recalls
      (h ++ [(.add t active data, (s.apply (.add t active data)).2)]) := by
  have hcount : History.additions ((h ++ [(Request.add t active data,
      (s.apply (.add t active data)).2)]).map Prod.fst) =
        History.additions (h.map Prod.fst) + 1 := by
    rw [List.map_append, List.map_singleton, History.additions_concat]
    rfl
  have hnext := hs.nextId
  refine ⟨ordered_apply hs.ordered _, fun t' => ?_, ?_, ?_⟩
  · have hlast : ∀ r ∈ s.records, r.id < s.nextId := fun r hr => hs.id_lt (hs.mem_added hr)
    rw [History.kept_concat, ← hs.ofType]
    refine (ofType_insert (r := ⟨s.nextId, t, active, data⟩) hs.ordered hlast _ t').trans ?_
    exact congrArg₂ _ (List.filter_eq_self.2 fun r _ => rfl).symm rfl
  · rw [hcount]
    show (s.nextId + 1).toNat = _
    rw [UInt64.toNat_add, hnext]
    exact Nat.mod_eq_of_lt (by simp; omega)
  · rw [History.added_concat, List.map_append, hs.ids, hcount, List.range'_1_concat]
    show _ ++ [s.nextId.toNat] = _
    rw [hnext, Nat.add_comm]

theorem delete (hs : s.Recalls h) (t : DataType) (ids : List UInt64) :
    (s.apply (.delete t ids)).1.Recalls
      (h ++ [(.delete t ids, (s.apply (.delete t ids)).2)]) := by
  rw [apply_delete]
  split_ifs with hmissing
  · -- the deletion takes effect
    have hcount : History.additions ((h ++ [(Request.delete t ids,
        Reply.records (s.remove t ids).2)]).map Prod.fst) =
          History.additions (h.map Prod.fst) := by
      rw [List.map_append, List.map_singleton, History.additions_concat]
      rfl
    refine ⟨ordered_remove hs.ordered t ids, fun t' => ?_, ?_, ?_⟩
    · rw [History.kept_concat, ← hs.ofType, Store.ofType, records_remove, Store.ofType,
        List.filter_filter, List.filter_filter]
      show _ = _ ++ if t = t' then [] else []
      rw [ite_self, List.append_nil]
      refine List.filter_congr fun r _ => ?_
      by_cases hr : r.dataType = t'
      · rw [hr]
        exact Bool.and_comm _ _
      · rw [beq_false_of_ne hr, Bool.false_and, Bool.and_false]
    · rw [hcount, nextId_remove]
      exact hs.nextId
    · rw [History.added_concat, hcount]
      exact (congrArg _ (List.append_nil _)).trans hs.ids
  · exact hs.quiet rfl fun _ _ => rfl

/-- One more request, as long as there are ids left. -/
theorem apply (hs : s.Recalls h) (r : Request)
    (hfew : History.additions (h.map Prod.fst ++ [r]) < 2 ^ 64 - 1) :
    (s.apply r).1.Recalls (h ++ [(r, (s.apply r).2)]) := by
  cases r with
  | getAll t => exact hs.quiet rfl fun _ _ => rfl
  | getByIds t ids active => exact hs.quiet rfl fun _ _ => rfl
  | add t active data =>
    rw [History.additions_concat] at hfew
    exact hs.add t active data hfew
  | delete t ids => exact hs.delete t ids

end Recalls

/-! ## Runs of requests -/

/-- What a run of requests has come to: each of them with its reply. -/
def history (s : Store) (requests : List Request) : History :=
  requests.zip (s.applyAll requests).2

theorem length_applyAll (s : Store) (requests : List Request) :
    (s.applyAll requests).2.length = requests.length := by
  induction requests generalizing s with
  | nil => rfl
  | cons r requests ih => exact congrArg (· + 1) (ih (s.apply r).1)

theorem map_fst_history (s : Store) (requests : List Request) :
    (s.history requests).map Prod.fst = requests :=
  List.map_fst_zip (Nat.le_of_eq (s.length_applyAll requests).symm)

theorem applyAll_cons (s : Store) (r : Request) (requests : List Request) :
    s.applyAll (r :: requests) =
      (((s.apply r).1.applyAll requests).1,
        (s.apply r).2 :: ((s.apply r).1.applyAll requests).2) := rfl

theorem applyAll_concat (s : Store) (requests : List Request) (r : Request) :
    s.applyAll (requests ++ [r]) =
      (((s.applyAll requests).1.apply r).1,
        (s.applyAll requests).2 ++ [((s.applyAll requests).1.apply r).2]) := by
  induction requests generalizing s with
  | nil => rfl
  | cons r' requests ih =>
    rw [List.cons_append, applyAll_cons, ih, applyAll_cons]
    rfl

theorem history_concat (s : Store) (requests : List Request) (r : Request) :
    s.history (requests ++ [r]) =
      s.history requests ++ [(r, ((s.applyAll requests).1.apply r).2)] := by
  rw [history, applyAll_concat, List.zip_append (s.length_applyAll requests).symm]
  rfl

theorem recalls_applyAll {requests : List Request}
    (hfew : History.additions requests < 2 ^ 64 - 1) :
    (empty.applyAll requests).1.Recalls (empty.history requests) := by
  induction requests using List.reverseRecOn with
  | nil => exact ⟨ordered_empty, fun _ => rfl, rfl, rfl⟩
  | append_singleton requests r ih =>
    have hfewer : History.additions requests < 2 ^ 64 - 1 := by
      rw [History.additions_concat] at hfew
      omega
    rw [applyAll_concat, history_concat]
    refine (ih hfewer).apply r ?_
    rwa [map_fst_history]

/-! ## The store and its history -/

/-- A store is told from its history. -/
structure EqualsHistory (s : Store) (h : History) : Prop where
  /-- What the key of a type and an id finds has that type and that id. -/
  keyed : ∀ t id r, s.get? t id = some r → r.dataType = t ∧ r.id = id
  /-- Every record is found by its own key. -/
  found : ∀ r ∈ s.records, s.get? r.dataType r.id = some r
  /-- The records of a type lie between the least and the greatest key of the type. -/
  range : ∀ t, s.ofType t = s.records.filter fun r =>
    (compare (⟨t, 0⟩ : RecordKey) r.key).isLE && (compare r.key ⟨t, -1⟩).isLE
  /-- No two records share an id, whatever their types. -/
  unique : (s.records.map Record.id).Nodup
  /-- Every addition has been answered with one record: what was to be added, and an id. -/
  answered : ∀ t active data reply, (Request.add t active data, reply) ∈ h →
    ∃ id, reply = .records [⟨id, t, active, data⟩]
  /-- The ids of the records that have been added are 1, 2, 3 and so on, in the order of
  addition; none comes twice, whatever has been deleted. -/
  issued : h.added.map (fun r => r.id.toNat) = List.range' 1 (History.additions (h.map Prod.fst))
  /-- All ids are below the next one. -/
  below : ∀ r, r ∈ s.records ∨ r ∈ h.added → r.id < s.nextId
  /-- Reading all records of a type gives those that have been kept, in the order of addition. -/
  getAll : ∀ t, (s.apply (.getAll t)).2 = .records (h.kept t)
  /-- Reading by ids gives for each of them the record that has been kept, if there is one and if
  it has the status that is asked for. -/
  getByIds : ∀ t ids active, (s.apply (.getByIds t ids active)).2 =
    .records (ids.filterMap fun id =>
      ((h.kept t).find? (·.id == id)).filter fun r => active = none ∨ active = some r.active)
  /-- Reading leaves the store as it is, and so does a request that fails. -/
  unchanged : ∀ r : Request, (∃ t, r = .getAll t) ∨ (∃ t ids active, r = .getByIds t ids active) ∨
    (∃ message, (s.apply r).2 = .failure message) → (s.apply r).1 = s

theorem Recalls.nodup_ids {s : Store} {h : History} (hs : s.Recalls h) :
    (s.records.map Record.id).Nodup := by
  have hnodup : s.records.Nodup := by
    refine hs.ordered.imp ?_
    rintro r _ hlt rfl
    rw [Std.compare_self] at hlt
    cases hlt
  refine hnodup.map_on fun r hr r' hr' heq => ?_
  exact hs.eq_of_id_eq (hs.mem_added hr) (hs.mem_added hr') heq

theorem Recalls.getByIds {s : Store} {h : History} (hs : s.Recalls h) (t : DataType)
    (ids : List UInt64) (active : Option Bool) :
    (s.apply (.getByIds t ids active)).2 = .records (ids.filterMap fun id =>
      ((h.kept t).find? (·.id == id)).filter fun r => active = none ∨ active = some r.active) := by
  show Reply.records ((ids.filterMap (s.get? t)).filter (hasStatus active)) = _
  rw [List.filter_filterMap]
  have hstatus : hasStatus active = fun r => decide (active = none ∨ active = some r.active) := by
    funext r
    cases active with
    | none => rfl
    | some a =>
      show (r.active == a) = _
      cases r.active <;> cases a <;> rfl
  congr 2
  funext id
  rw [get?_eq_find?, hs.ofType, hstatus]

/-- Every addition of a run is answered with what was to be added. -/
theorem answered_history (s : Store) (requests : List Request) {t : DataType} {active : Bool}
    {data : Json} {reply : Reply} (h : (.add t active data, reply) ∈ s.history requests) :
    ∃ id, reply = .records [⟨id, t, active, data⟩] := by
  induction requests generalizing s with
  | nil => cases h
  | cons r requests ih =>
    rw [history, applyAll_cons, List.zip_cons_cons, List.mem_cons] at h
    rcases h with h | h
    · cases h
      exact ⟨s.nextId, rfl⟩
    · exact ih (s.apply r).1 h

/-- A store equals its history: whatever requests a new store runs, fewer than `2 ^ 64 - 1`
additions among them, it holds and gives what they have made of it. -/
theorem equals_history (requests : List Request)
    (hfew : History.additions requests < 2 ^ 64 - 1) :
    EqualsHistory (empty.applyAll requests).1 (empty.history requests) := by
  have hs := recalls_applyAll hfew
  exact
    { keyed := fun t id r hr => ((get?_eq_some_iff hs.ordered).1 hr).2
      found := fun r hr => (get?_eq_some_iff hs.ordered).2 ⟨hr, rfl, rfl⟩
      range := ofType_eq_range _
      unique := hs.nodup_ids
      answered := fun _ _ _ _ h => answered_history _ _ h
      issued := hs.ids
      below := fun r hr => hs.id_lt (hr.elim hs.mem_added id)
      getAll := fun t => congrArg Reply.records (hs.ofType t)
      getByIds := hs.getByIds
      unchanged := fun r hr => apply_eq_self hr }

/-- Additions of both types and deletions: the third record gets the id 3 although the second is
gone, and a deletion that fails leaves the first. -/
theorem equals_history_mixed :
    let requests : List Request := [.add .company true .null, .add .record false (.bool true),
      .delete .record [2], .add .record true (.text "x"), .delete .company [1, 3]]
    History.additions requests < 2 ^ 64 - 1 ∧
      (empty.applyAll requests).1 =
        ⟨4, [⟨1, .company, true, .null⟩, ⟨3, .record, true, .text "x"⟩]⟩ ∧
      EqualsHistory (empty.applyAll requests).1 (empty.history requests) :=
  ⟨by decide, rfl, equals_history _ (by decide)⟩

end Store

end ClusterConsole
