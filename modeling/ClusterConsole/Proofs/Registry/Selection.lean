/-
Selection is a partial order that goes together with the order of paths (`selection_ordered`): what a
path selects comes at or after it. A look-up therefore answers with the registration of its own path
first, if there is one. Selection works in the number of segments and in the beginning of each of
them, the order segment by segment and letter by letter; an induction over both lists of segments at
once compares the two (`eq_or_lt_of_abbreviates`).
-/
import ClusterConsole.Proofs.Registry.Abbreviation
import ClusterConsole.Proofs.Text.Order

namespace ClusterConsole

namespace CommandPath

variable {p q : CommandPath}

/-- A path is selected by one that has no more segments, each of which its own segment at the same
place begins with. -/
theorem abbreviates_iff {query segments : List Text} : abbreviates query segments = true ↔
    query.length ≤ segments.length ∧ ∀ s ∈ query.zip segments, s.1 <+: s.2 := by
  fun_induction abbreviates query segments with
  | case1 segments => simp
  | case2 q qs => simp
  | case3 q qs s ss ih =>
    rw [Bool.and_eq_true, List.isPrefixOf_iff_prefix, ih, List.zip_cons_cons,
      List.forall_mem_cons, List.length_cons, List.length_cons, Nat.add_le_add_iff_right]
    tauto

theorem abbreviates_antisymm {as bs : List Text} (h : abbreviates as bs = true)
    (h' : abbreviates bs as = true) : as = bs := by
  fun_induction abbreviates as bs with
  | case1 bs =>
    cases bs with
    | nil => rfl
    | cons b bs => cases h'
  | case2 => cases h
  | case3 a as b bs ih =>
    rw [abbreviates, Bool.and_eq_true, List.isPrefixOf_iff_prefix] at h'
    rw [Bool.and_eq_true, List.isPrefixOf_iff_prefix] at h
    rw [h.1.eq_of_length_le h'.1.length_le, ih h.2 h'.2]

/-- At the first segment where they differ the abbreviation is shorter, and if there is none it has
fewer segments. -/
theorem eq_or_lt_of_abbreviates {query segments : List Text}
    (h : abbreviates query segments = true) : query = segments ∨ compare query segments = .lt := by
  fun_induction abbreviates query segments with
  | case1 segments =>
    cases segments with
    | nil => exact Or.inl rfl
    | cons s ss => exact Or.inr rfl
  | case2 => cases h
  | case3 q qs s ss ih =>
    rw [Bool.and_eq_true, List.isPrefixOf_iff_prefix] at h
    rw [List.compare_cons_cons]
    rcases eq_or_lt_of_prefix h.1 with rfl | hlt
    · rcases ih h.2 with rfl | hlt
      · exact Or.inl rfl
      · rw [Std.compare_self, hlt]
        exact Or.inr rfl
    · rw [hlt]
      exact Or.inr rfl

theorem isLE_of_selectedBy (h : p.selectedBy q = true) : (compare q p).isLE = true := by
  show (compare q.segments p.segments).isLE = true
  rcases eq_or_lt_of_abbreviates h with heq | hlt
  · rw [heq, Std.compare_self]
    rfl
  · rw [hlt]
    rfl

theorem isPartialOrder_selects : IsPartialOrder CommandPath fun q p => p.selectedBy q = true where
  refl p := abbreviates_refl p.segments
  trans _ _ _ h h' := abbreviates_trans h h'
  antisymm p q h h' := by
    have hsegments := abbreviates_antisymm h h'
    cases p
    cases q
    cases hsegments
    rfl

/-! ## Bytes -/

/-- The segments of a path in UTF-8. -/
def bytes (p : CommandPath) : List Bytes := p.segments.map Utf8.encode

theorem compare_bytes (p q : CommandPath) : compare p.bytes q.bytes = compare p q :=
  compare_map Utf8.compare_encode p.segments q.segments

theorem selectedBy_iff : p.selectedBy q = true ↔
    q.bytes.length ≤ p.bytes.length ∧ ∀ s ∈ q.bytes.zip p.bytes, s.1 <+: s.2 := by
  unfold selectedBy bytes
  rw [abbreviates_iff, List.length_map, List.length_map, List.zip_map, List.forall_mem_map]
  simp only [Prod.map, Utf8.encode_prefix_iff]

end CommandPath

namespace Registry

variable {ρ : Type} {registry : Registry ρ} {q : CommandPath} {e : Registration}

/-! ## Look-ups -/

theorem mem_found : e ∈ registry.found q ↔
    e ∈ registry.catalog.entries ∧ e.path.selectedBy q = true := by
  simp [found, answer, Catalog.select]

/-- Whatever else a path finds comes after its own registration. -/
theorem head?_found (he : e ∈ registry.catalog.entries) :
    (registry.found e.path).head? = some e := by
  have hself : e ∈ registry.found e.path :=
    mem_found.2 ⟨he, CommandPath.abbreviates_refl e.path.segments⟩
  have hascends : Ascending.Ascends Registration.path (registry.found e.path) :=
    (registry.answer (.lookup ⟨[e.path], single_ne_nil e.path, none⟩)).catalog.ascends
  cases hfound : registry.found e.path with
  | nil =>
    rw [hfound] at hself
    cases hself
  | cons first rest =>
    have hfirst : (compare e.path first.path).isLE = true := by
      have hmem : first ∈ registry.found e.path := by
        rw [hfound]
        exact List.mem_cons_self
      exact CommandPath.isLE_of_selectedBy (mem_found.1 hmem).2
    rw [hfound] at hself hascends
    rcases List.mem_cons.1 hself with rfl | hrest
    · rfl
    · have hlt := (List.pairwise_cons.1 hascends).1 e hrest
      rw [Std.OrientedCmp.gt_of_lt hlt] at hfirst
      cases hfirst

/-- How selection and the order of paths go together, in a registry with any registrations. -/
structure SelectionOrdered (registry : Registry ρ) : Prop where
  /-- Selection is reflexive, transitive and antisymmetric. -/
  order : IsPartialOrder CommandPath fun q p => p.selectedBy q = true
  /-- A path is selected by one that has no more segments, each of which begins the segment of the
  path at the same place, byte by byte. -/
  selects_iff : ∀ p q : CommandPath, p.selectedBy q = true ↔
    q.bytes.length ≤ p.bytes.length ∧ ∀ s ∈ q.bytes.zip p.bytes, s.1 <+: s.2
  /-- Paths come in the lexicographic order of their segments' bytes. -/
  bytewise : ∀ p q : CommandPath, compare p q = compare p.bytes q.bytes
  /-- What a path selects comes at or after it. -/
  le : ∀ p q : CommandPath, p.selectedBy q = true → (compare q p).isLE = true
  le_found : ∀ q, ∀ e ∈ registry.found q, (compare q e.path).isLE = true
  /-- A look-up of the path of a registration answers with that registration first. -/
  own_first : ∀ e ∈ registry.catalog.entries, (registry.found e.path).head? = some e

theorem selection_ordered (registry : Registry ρ) : SelectionOrdered registry where
  order := CommandPath.isPartialOrder_selects
  selects_iff _ _ := CommandPath.selectedBy_iff
  bytewise p q := (CommandPath.compare_bytes p q).symm
  le _ _ := CommandPath.isLE_of_selectedBy
  le_found _ _ he := CommandPath.isLE_of_selectedBy (mem_found.1 he).2
  own_first _ := head?_found

end Registry

end ClusterConsole
