/-
Tables whose fields come in another order. Two values are the same as far as tables go by their keys
if they are the same once the fields of every table are sorted. Sorting again changes nothing
(`sorted_sorted`), writing a document moves fields only so far as sorting forgets
(`sorted_pairsFirst`), and what can be written and read back still can when it is sorted
(`fits_sorted`). So a table with a single field is read back with the same value
(`read_write_single`).
-/
import ClusterConsole.Config.Document
import ClusterConsole.Proofs.Ascending
import ClusterConsole.Proofs.Toml.Tables

namespace ClusterConsole.Toml

variable {fields : List (Text × Toml)}

/-- A property of values holds of all if it holds of arrays and tables when it holds of what they
are made of. -/
theorem induction {P : Toml → Prop} (text : ∀ t, P (.text t)) (integer : ∀ n, P (.integer n))
    (float : ∀ t, P (.float t)) (boolean : ∀ b, P (.boolean b)) (dateTime : ∀ t, P (.dateTime t))
    (array : ∀ items, (∀ v ∈ items, P v) → P (.array items))
    (table : ∀ fields, (∀ f ∈ fields, P f.2) → P (.table fields)) : ∀ v, P v
  | .text t => text t
  | .integer n => integer n
  | .float t => float t
  | .boolean b => boolean b
  | .dateTime t => dateTime t
  | .array items => array items fun v _ =>
    induction text integer float boolean dateTime array table v
  | .table fields => table fields fun f hf => by
    obtain ⟨k, v⟩ := f
    have : sizeOf v < sizeOf fields := by
      have hmem := List.sizeOf_lt_of_mem hf
      have hpair : sizeOf (k, v) = 1 + sizeOf k + sizeOf v := rfl
      omega
    exact induction text integer float boolean dateTime array table v

/-! ## Sorting -/

theorem sortedItems_eq_map (items : List Toml) : sortedItems items = items.map sorted := by
  induction items with
  | nil => rfl
  | cons v vs ih => rw [sortedItems, ih, List.map_cons]

theorem sortedFields_eq_map (fields : List (Text × Toml)) :
    sortedFields fields = fields.map fun f => (f.1, f.2.sorted) := by
  induction fields with
  | nil => rfl
  | cons f fs ih => rw [sortedFields, ih, List.map_cons]

/-- Every field of a sorted table is sorted, and stems from a field that was there before. -/
theorem exists_of_mem_sorted {f : Text × Toml}
    (h : f ∈ Ascending.ofList Prod.fst (sortedFields fields)) :
    ∃ g ∈ fields, f = (g.1, g.2.sorted) := by
  have hmem := Ascending.mem_of_mem_ofList h
  rw [sortedFields_eq_map] at hmem
  obtain ⟨g, hg, rfl⟩ := List.mem_map.1 hmem
  exact ⟨g, hg, rfl⟩

theorem sorted_sorted (v : Toml) : v.sorted.sorted = v.sorted := by
  induction v using Toml.induction with
  | text _ | integer _ | float _ | boolean _ | dateTime _ => rfl
  | array items ih =>
    rw [sorted, sorted, sortedItems_eq_map, sortedItems_eq_map, List.map_map]
    exact congrArg Toml.array (List.map_congr_left ih)
  | table fields ih =>
    rw [sorted, sorted]
    -- the fields stay as they are one by one, and so does their order
    have hfields : sortedFields (Ascending.ofList Prod.fst (sortedFields fields)) =
        Ascending.ofList Prod.fst (sortedFields fields) := by
      rw [sortedFields_eq_map]
      refine (List.map_congr_left fun f hf => ?_).trans (List.map_id _)
      obtain ⟨g, hg, rfl⟩ := exists_of_mem_sorted hf
      exact Prod.ext rfl (ih g hg)
    rw [hfields, Ascending.ofList_of_ascends (Ascending.pairwise_ofList _ _)]

/-! ## The order of a document -/

theorem pairsFirstItems_eq_map (items : List Toml) :
    pairsFirstItems items = items.map pairsFirst := by
  induction items with
  | nil => rfl
  | cons v vs ih => rw [pairsFirstItems, ih, List.map_cons]

theorem sectionsOf_eq (fields : List (Text × Toml)) :
    sectionsOf fields =
      (fields.filter fun f => isSection f.2).map fun f => (f.1, pairsFirst f.2) := by
  induction fields with
  | nil => rfl
  | cons f fs ih => cases h : isSection f.2 <;> simp [sectionsOf, ih, h]

/-- The fields of an arranged table are those of the table, each perhaps arranged itself. -/
theorem mem_arranged_iff {f : Text × Toml} : f ∈ arranged fields ↔
    ∃ g ∈ fields, f = (g.1, if isSection g.2 then pairsFirst g.2 else g.2) := by
  rw [arranged, sectionsOf_eq, pairsOf, List.mem_append, List.mem_filter, List.mem_map]
  constructor
  · rintro (⟨hf, hpair⟩ | ⟨g, hg, rfl⟩)
    · refine ⟨f, hf, ?_⟩
      rw [Bool.not_eq_true'] at hpair
      simp [hpair]
    · obtain ⟨hg, hsection⟩ := List.mem_filter.1 hg
      exact ⟨g, hg, by rw [if_pos hsection]⟩
  · rintro ⟨g, hg, rfl⟩
    cases hsection : isSection g.2 with
    | true => exact .inr ⟨g, List.mem_filter.2 ⟨hg, hsection⟩, rfl⟩
    | false => exact .inl ⟨hg, by simp [hsection]⟩

/-- Under distinct keys, what is arranged is sorted to the same table, if that holds of each
field. -/
theorem sorted_arranged (hkeys : (fields.map Prod.fst).Nodup)
    (hsame : ∀ f ∈ fields, (pairsFirst f.2).sorted = f.2.sorted) :
    (Toml.table (arranged fields)).sorted = (Toml.table fields).sorted := by
  have hmem : ∀ f, f ∈ sortedFields (arranged fields) ↔ f ∈ sortedFields fields := by
    intro f
    have hfield : ∀ g ∈ fields,
        (if isSection g.2 then pairsFirst g.2 else g.2).sorted = g.2.sorted := by
      intro g hg
      split_ifs
      · exact hsame g hg
      · rfl
    simp only [sortedFields_eq_map, List.mem_map]
    constructor
    · rintro ⟨f, hf, rfl⟩
      obtain ⟨g, hg, rfl⟩ := mem_arranged_iff.1 hf
      exact ⟨g, hg, by rw [hfield g hg]⟩
    · rintro ⟨g, hg, rfl⟩
      exact ⟨_, mem_arranged_iff.2 ⟨g, hg, rfl⟩, by rw [hfield g hg]⟩
  have hdistinct : ∀ f ∈ sortedFields fields, ∀ g ∈ sortedFields fields,
      compare f.1 g.1 = .eq → f = g := by
    have hnodup : ((sortedFields fields).map Prod.fst).Nodup := by
      rw [sortedFields_eq_map, List.map_map]
      exact hkeys
    exact fun f hf g hg heq =>
      List.inj_on_of_nodup_map hnodup hf hg (Std.LawfulEqCmp.eq_of_compare heq)
  rw [sorted, sorted, Ascending.ofList_eq_of_mem hdistinct hmem]

/-! ## Values that are read back -/

theorem fitsItems_iff {n : Nat} {items : List Toml} : FitsItems n items ↔
    ∀ v ∈ items, ∃ fields, v = .table fields ∧ (fields.map Prod.fst).Nodup ∧
      FitsFields (n + 1) fields := by
  induction items with
  | nil => simp [FitsItems]
  | cons v items ih =>
    rw [List.forall_mem_cons, ← ih]
    cases v with
    | table fields => simp [FitsItems, and_assoc]
    | _ => simp [FitsItems]

theorem fitsFields_iff {n : Nat} : FitsFields n fields ↔ ∀ f ∈ fields, Fits n f.2 := by
  induction fields with
  | nil => simp [FitsFields]
  | cons f fields ih => rw [List.forall_mem_cons, ← ih, FitsFields]

theorem pairsFirst_of_isAtom {v : Toml} (h : isAtom v = true) : pairsFirst v = v := by
  cases v with
  | array _ | table _ => cases h
  | _ => rfl

theorem sorted_of_isAtom {v : Toml} (h : isAtom v = true) : v.sorted = v := by
  cases v with
  | array _ | table _ => cases h
  | _ => rfl

/-- Writing a value in order leaves the keys of its tables where they belong. -/
theorem sorted_pairsFirst {n : Nat} {v : Toml} (h : Fits n v) :
    (pairsFirst v).sorted = v.sorted := by
  induction v using Toml.induction generalizing n with
  | text _ | integer _ | float _ | boolean _ | dateTime _ => rfl
  | array items ih =>
    rw [pairsFirst, sorted, sorted, sortedItems_eq_map, sortedItems_eq_map,
      pairsFirstItems_eq_map, List.map_map]
    refine congrArg Toml.array (List.map_congr_left fun v hv => ?_)
    rcases h with h | ⟨hn, h⟩
    · exact congrArg sorted (pairsFirst_of_isAtom (List.all_eq_true.1 h v hv))
    · obtain ⟨fields, rfl, hkeys, hfields⟩ := fitsItems_iff.1 h v hv
      exact ih _ hv (n := n) ⟨hn, hkeys, hfields⟩
  | table fields ih =>
    obtain ⟨-, hkeys, hfields⟩ := h
    exact sorted_arranged hkeys fun f hf => ih f hf (fits_of_mem hfields hf)

/-- A value that is read back is still read back when its fields are sorted. -/
theorem fits_sorted {n : Nat} {v : Toml} (h : Fits n v) : Fits n v.sorted := by
  induction v using Toml.induction generalizing n with
  | text _ | boolean _ => trivial
  | integer _ | float _ | dateTime _ => cases h
  | array items ih =>
    rw [sorted, sortedItems_eq_map]
    rcases h with h | ⟨hn, h⟩
    · have hatoms : items.map sorted = items :=
        (List.map_congr_left fun v hv => sorted_of_isAtom (List.all_eq_true.1 h v hv)).trans
          (List.map_id _)
      rw [hatoms]
      exact .inl h
    · refine .inr ⟨hn, fitsItems_iff.2 fun w hw => ?_⟩
      obtain ⟨v, hv, rfl⟩ := List.mem_map.1 hw
      obtain ⟨fields, rfl, hkeys, hfields⟩ := fitsItems_iff.1 h v hv
      obtain ⟨-, hkeys', hfields'⟩ := ih _ hv (n := n) ⟨hn, hkeys, hfields⟩
      exact ⟨_, rfl, hkeys', hfields'⟩
  | table fields ih =>
    obtain ⟨hn, hkeys, hfields⟩ := h
    refine ⟨hn, ?_, fitsFields_iff.2 fun f hf => ?_⟩
    · have hascends : Ascending.Ascends Prod.fst (Ascending.ofList Prod.fst (sortedFields fields)) :=
        Ascending.pairwise_ofList _ _
      refine List.pairwise_map.2 (hascends.imp fun {f g} hlt heq => ?_)
      rw [heq, Std.compare_self] at hlt
      cases hlt
    · obtain ⟨g, hg, rfl⟩ := exists_of_mem_sorted hf
      exact ih g hg (fits_of_mem hfields hg)

/-- A document of a single field is read back with that field, whose value is the same but for the
order of fields inside it. -/
theorem read_write_single (key : Text) {v : Toml} (h : Fits 1 v) :
    ∃ w, read (write [(key, v)]) = some [(key, w)] ∧ w.sorted = v.sorted := by
  have hread : read (write [(key, v)]) = some (arranged [(key, v)]) :=
    read_write (List.nodup_singleton key) ⟨h, trivial⟩
  rw [hread]
  cases hsection : isSection v with
  | true =>
    exact ⟨pairsFirst v, by simp [arranged, pairsOf, sectionsOf, hsection], sorted_pairsFirst h⟩
  | false => exact ⟨v, by simp [arranged, pairsOf, sectionsOf, hsection], rfl⟩

end ClusterConsole.Toml
