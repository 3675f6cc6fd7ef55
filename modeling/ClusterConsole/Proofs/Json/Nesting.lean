/-
How deep values are nested, and their canonical forms. Whatever a document holds, what is read from
it is nested less deeply than the place allows (`depth_of_readAt`, `depth_of_readTagged`). The
canonical form of a value is no deeper than the value (`depth_canonical_le`), and it is its own
canonical form (`canonical_canonical`).
-/
import ClusterConsole.Json.Stream
import ClusterConsole.Proofs.Ascending
import ClusterConsole.Proofs.Json.Value

namespace ClusterConsole.Json

/-! ## Depth -/

theorem depthItems_le_iff {items : List Json} {n : Nat} :
    depthItems items ≤ n ↔ ∀ v ∈ items, v.depth ≤ n := by
  induction items with
  | nil => simp [depthItems]
  | cons v vs ih => simp [depthItems, ih]

theorem depthFields_le_iff {fields : List (Text × Json)} {n : Nat} :
    depthFields fields ≤ n ↔ ∀ p ∈ fields, p.2.depth ≤ n := by
  induction fields with
  | nil => simp [depthFields]
  | cons p fs ih => simp [depthFields, ih]

/-- The values that a list or an object is made of. -/
def children : Json → List Json
  | .array items => items
  | .object fields => fields.map Prod.snd
  | _ => []

theorem depth_lt_of_mem_children {v w : Json} (h : w ∈ v.children) : w.depth < v.depth := by
  cases v with
  | array items =>
    rw [depth]
    exact Nat.lt_succ_of_le (depthItems_le_iff.1 le_rfl w h)
  | object fields =>
    obtain ⟨p, hp, rfl⟩ := List.mem_map.1 h
    rw [depth]
    exact Nat.lt_succ_of_le (depthFields_le_iff.1 le_rfl p hp)
  | null | bool _ | number _ | text _ => cases h

/-! ## Canonical forms -/

theorem canonicalItems_eq_map (items : List Json) : canonicalItems items = items.map canonical := by
  induction items with
  | nil => rfl
  | cons v vs ih => rw [canonicalItems, ih, List.map_cons]

theorem canonicalFields_eq_map (fields : List (Text × Json)) :
    canonicalFields fields = fields.map fun p => (p.1, p.2.canonical) := by
  induction fields with
  | nil => rfl
  | cons p fs ih => rw [canonicalFields, ih, List.map_cons]

/-- Every field of a canonical object has a value in canonical form, and stems from a field that was
given. -/
theorem exists_of_mem_canonical {fields : List (Text × Json)} {p : Text × Json}
    (h : p ∈ Ascending.ofList Prod.fst (canonicalFields fields)) :
    ∃ q ∈ fields, p = (q.1, q.2.canonical) := by
  have hmem := Ascending.mem_of_mem_ofList h
  rw [canonicalFields_eq_map] at hmem
  obtain ⟨q, hq, rfl⟩ := List.mem_map.1 hmem
  exact ⟨q, hq, rfl⟩

theorem depth_canonical_le (v : Json) : v.canonical.depth ≤ v.depth := by
  induction v using Json.induction with
  | null | bool _ | number _ | text _ => exact le_rfl
  | array items ih =>
    rw [canonical, depth, depth, canonicalItems_eq_map]
    refine Nat.succ_le_succ (depthItems_le_iff.2 fun w hw => ?_)
    obtain ⟨v, hv, rfl⟩ := List.mem_map.1 hw
    exact (ih v hv).trans (depthItems_le_iff.1 le_rfl v hv)
  | object fields ih =>
    rw [canonical, depth, depth]
    refine Nat.succ_le_succ (depthFields_le_iff.2 fun p hp => ?_)
    obtain ⟨q, hq, rfl⟩ := exists_of_mem_canonical hp
    exact (ih q hq).trans (depthFields_le_iff.1 le_rfl q hq)

theorem canonical_canonical (v : Json) : v.canonical.canonical = v.canonical := by
  induction v using Json.induction with
  | null | bool _ | number _ | text _ => rfl
  | array items ih =>
    rw [canonical, canonical, canonicalItems_eq_map, canonicalItems_eq_map, List.map_map]
    exact congrArg Json.array (List.map_congr_left ih)
  | object fields ih =>
    rw [canonical, canonical]
    -- the fields stay as they are one by one, and so does their order
    have hfields : canonicalFields (Ascending.ofList Prod.fst (canonicalFields fields)) =
        Ascending.ofList Prod.fst (canonicalFields fields) := by
      rw [canonicalFields_eq_map]
      refine (List.map_congr_left fun p hp => ?_).trans (List.map_id _)
      obtain ⟨q, hq, rfl⟩ := exists_of_mem_canonical hp
      exact Prod.ext rfl (ih q hq)
    rw [hfields, Ascending.ofList_of_ascends (Ascending.pairwise_ofList _ _)]

/-! ## What readers give -/

section Readers

variable {α σ : Type}

theorem forall_of_readItems {P : α → Prop} {item : Read α}
    (hitem : ∀ bs v rest, item bs = .ok (v, rest) → P v) {fuel : Nat} {first : Bool} {bs : Bytes}
    {vs : List α} {rest : Bytes} (h : readItems item fuel first bs = .ok (vs, rest)) :
    ∀ v ∈ vs, P v := by
  induction fuel generalizing first bs vs rest with
  | zero => cases h
  | succ fuel ih =>
    rw [readItems] at h
    obtain ⟨⟨next, left⟩, -, h⟩ := bind_eq_ok.1 h
    cases next with
    | close =>
      cases h
      simp
    | item =>
      obtain ⟨⟨v, left⟩, hv, h⟩ := bind_eq_ok.1 h
      obtain ⟨⟨more, left⟩, hmore, h⟩ := bind_eq_ok.1 h
      cases h
      exact List.forall_mem_cons.2 ⟨hitem _ _ _ hv, ih hmore⟩

/-- What every field keeps is kept up to the end of an object. -/
theorem invariant_of_readFields {P : σ → Prop} {field : σ → Text → Read σ}
    (hfield : ∀ s key bs s' rest, P s → field s key bs = .ok (s', rest) → P s') {fuel : Nat}
    {first : Bool} {s s' : σ} {bs rest : Bytes} (hs : P s)
    (h : readFields field fuel first s bs = .ok (s', rest)) : P s' := by
  induction fuel generalizing first s bs with
  | zero => cases h
  | succ fuel ih =>
    rw [readFields] at h
    obtain ⟨⟨next, left⟩, -, h⟩ := bind_eq_ok.1 h
    cases next with
    | close =>
      cases h
      exact hs
    | item =>
      obtain ⟨⟨key, left⟩, -, h⟩ := bind_eq_ok.1 h
      obtain ⟨⟨state, left⟩, hstate, h⟩ := bind_eq_ok.1 h
      exact ih (hfield _ _ _ _ _ hs hstate) h

end Readers

/-- What a reader of values can come to: a value without parts, a list of items or an object of
fields for which there is still room. -/
theorem readAt_eq_ok {d : Nat} {bs rest : Bytes} {v : Json} (h : readAt d bs = .ok (v, rest)) :
    ∃ n, d = n + 1 ∧ (v.depth = 0 ∨
      (∃ fuel bs' items left, n ≠ 0 ∧ v = .array items ∧
        readItems (readAt n) fuel true bs' = .ok (items, left)) ∨
      ∃ fuel bs' fields left, n ≠ 0 ∧ v = .object fields.reverse ∧
        readFields (plainField n) fuel true [] bs' = .ok (fields, left)) := by
  cases d with
  | zero => cases h
  | succ n =>
    refine ⟨n, rfl, ?_⟩
    rw [readAt] at h
    split at h
    · cases h
    · split_ifs at h
      -- words, numbers and texts
      iterate 6
        · obtain ⟨_, -, heq⟩ := map_eq_ok.1 h
          cases heq
          exact Or.inl rfl
      · cases h
      · rename_i hroom
        obtain ⟨⟨items, left⟩, hitems, h⟩ := bind_eq_ok.1 h
        obtain ⟨left', -, h⟩ := bind_eq_ok.1 h
        cases h
        exact Or.inr (Or.inl ⟨_, _, _, _, hroom, rfl, hitems⟩)
      · cases h
      · rename_i hroom
        obtain ⟨⟨fields, left⟩, hfields, h⟩ := bind_eq_ok.1 h
        obtain ⟨left', -, h⟩ := bind_eq_ok.1 h
        cases h
        exact Or.inr (Or.inr ⟨_, _, _, _, hroom, rfl, hfields⟩)
      · cases h

theorem depth_of_readAt {d : Nat} {bs rest : Bytes} {v : Json} (h : readAt d bs = .ok (v, rest)) :
    v.depth < d := by
  induction d generalizing bs v rest with
  | zero => cases h
  | succ d ih =>
    obtain ⟨n, hn, hv⟩ := readAt_eq_ok h
    obtain rfl : d = n := Nat.succ.inj hn
    rcases hv with hv | ⟨fuel, bs', items, left, hroom, rfl, hitems⟩ |
      ⟨fuel, bs', fields, left, hroom, rfl, hfields⟩
    · omega
    · have hdeep : ∀ v ∈ items, v.depth < d := forall_of_readItems (fun _ _ _ => ih) hitems
      have hle : depthItems items ≤ d - 1 :=
        depthItems_le_iff.2 fun v hv => Nat.le_sub_one_of_lt (hdeep v hv)
      rw [depth]
      omega
    · have hdeep : ∀ p ∈ fields, p.2.depth < d := by
        refine invariant_of_readFields (P := fun fields => ∀ p ∈ fields, p.2.depth < d)
          (fun s key bs s' rest hs h => ?_) (by simp) hfields
        obtain ⟨_, -, h⟩ := bind_eq_ok.1 h
        obtain ⟨⟨v, left⟩, hv, h⟩ := bind_eq_ok.1 h
        cases h
        exact List.forall_mem_cons.2 ⟨ih hv, hs⟩
      have hle : depthFields fields.reverse ≤ d - 1 :=
        depthFields_le_iff.2 fun p hp => Nat.le_sub_one_of_lt (hdeep p (List.mem_reverse.1 hp))
      rw [depth]
      omega

/-! ## Messages -/

theorem placeInObject_eq_ok {α : Type} {r : Except Halt α} {a : α} :
    placeInObject r = .ok a ↔ r = .ok a := by
  cases r with
  | ok b => rfl
  | error e => cases e <;> simp [placeInObject]

theorem placeInList_eq_ok {α : Type} {r : Except Halt α} {a : α} :
    placeInList r = .ok a ↔ r = .ok a := by
  cases r with
  | ok b => rfl
  | error e => cases e <;> simp [placeInList]

theorem refuseNext_ne_ok {α : Type} {expected : Text} {bs : Bytes} {a : α} :
    refuseNext expected bs ≠ .ok a := by
  intro h
  rw [refuseNext] at h
  split at h
  · cases h
  · split_ifs at h
    · cases h
    · cases h
    · obtain ⟨p, -, h⟩ := bind_eq_ok.1 h
      cases h

theorem depth_of_taggedField {tag key : Text} {known : List Text}
    {s s' : Option Text × List (Text × Json)} {bs rest : Bytes}
    (hs : ∀ p ∈ s.2, p.2.depth < depthLimit - 1)
    (h : taggedField tag known s key bs = .ok (s', rest)) :
    ∀ p ∈ s'.2, p.2.depth < depthLimit - 1 := by
  rw [taggedField] at h
  split_ifs at h
  · split at h
    · cases h
    · obtain ⟨_, -, h⟩ := bind_eq_ok.1 h
      obtain ⟨_, -, h⟩ := bind_eq_ok.1 h
      cases h
      exact hs
  · obtain ⟨_, -, h⟩ := bind_eq_ok.1 h
    obtain ⟨⟨v, left⟩, hv, h⟩ := bind_eq_ok.1 h
    cases h
    exact List.forall_mem_cons.2 ⟨depth_of_readAt hv, hs⟩

/-- What a message carries besides its name is nested one place less deep than a document may be. -/
theorem depth_of_readTagged {what tag name : Text} {known : List Text} {bs rest : Bytes}
    {content : Json} (h : readTagged what tag known bs = .ok ((name, content), rest)) :
    ∀ v ∈ content.children, v.depth < depthLimit - 1 := by
  rw [readTagged] at h
  split at h
  · obtain ⟨⟨message, left⟩, hobject, h⟩ := bind_eq_ok.1 h
    obtain ⟨_, -, h⟩ := bind_eq_ok.1 h
    cases h
    rw [placeInObject_eq_ok, taggedObject] at hobject
    obtain ⟨⟨⟨name', fields⟩, left'⟩, hfields, h⟩ := bind_eq_ok.1 hobject
    cases name' with
    | none => cases h
    | some name' =>
      cases h
      have hdeep : ∀ p ∈ fields, p.2.depth < depthLimit - 1 :=
        invariant_of_readFields (P := fun s => ∀ p ∈ s.2, p.2.depth < depthLimit - 1)
          (fun _ _ _ _ _ => depth_of_taggedField) (by simp) hfields
      intro v hv
      obtain ⟨p, hp, rfl⟩ := List.mem_map.1 hv
      exact hdeep p (List.mem_reverse.1 hp)
  · obtain ⟨⟨message, left⟩, hlist, h⟩ := bind_eq_ok.1 h
    obtain ⟨_, -, h⟩ := bind_eq_ok.1 h
    cases h
    rw [placeInList_eq_ok, taggedList] at hlist
    obtain ⟨⟨next, left'⟩, -, h⟩ := bind_eq_ok.1 hlist
    cases next with
    | close => cases h
    | item =>
      obtain ⟨_, -, h⟩ := bind_eq_ok.1 h
      obtain ⟨⟨items, _⟩, hitems, h⟩ := bind_eq_ok.1 h
      cases h
      exact forall_of_readItems (fun _ _ _ => depth_of_readAt) hitems
  · exact absurd h refuseNext_ne_ok

end ClusterConsole.Json
