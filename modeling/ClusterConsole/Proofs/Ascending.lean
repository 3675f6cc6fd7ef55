/-
Lists in ascending order of a key are sets: two with the same elements are the same list
(`Ascends.ext`). A key finds the only element that it belongs to (`find?_eq_some_iff`), and elements
of different keys may be inserted in either order (`insert_comm`). Putting elements in order leaves
them as they are if they ascend already (`ofList_of_ascends`), and of several elements of one key it
keeps the last (`mem_ofList_iff`).
-/
import ClusterConsole.Ascending
import Mathlib.Tactic

namespace ClusterConsole.Ascending

variable {α κ : Type} [Ord κ] {key : α → κ} {k : κ} {a x : α} {as : List α}

theorem mem_insert_self (key : α → κ) (a : α) (as : List α) : a ∈ insert key a as := by
  induction as with
  | nil => simp [insert]
  | cons b bs ih =>
    unfold insert
    split
    · simp
    · simp
    · exact List.mem_cons_of_mem _ ih

/-- Only the element of the same key makes room for a new one. -/
theorem mem_insert_of_mem [Std.TransOrd κ] (hx : x ∈ as)
    (hne : compare (key x) (key a) ≠ .eq) : x ∈ insert key a as := by
  induction as with
  | nil => cases hx
  | cons b bs ih =>
    unfold insert
    split
    · exact List.mem_cons_of_mem _ hx
    · rename_i heq
      rcases List.mem_cons.1 hx with rfl | hx
      · exact absurd (Std.OrientedCmp.eq_symm heq) hne
      · exact List.mem_cons_of_mem _ hx
    · rcases List.mem_cons.1 hx with rfl | hx
      · exact List.mem_cons_self
      · exact List.mem_cons_of_mem _ (ih hx)

theorem mem_insertAll {start : List α} (h : x ∈ insertAll key start as) : x ∈ start ∨ x ∈ as := by
  induction as generalizing start with
  | nil => exact Or.inl h
  | cons a as ih =>
    rcases @ih (insert key a start) h with h | h
    · rcases mem_insert key a h with rfl | h
      · exact Or.inr List.mem_cons_self
      · exact Or.inl h
    · exact Or.inr (List.mem_cons_of_mem _ h)

theorem mem_of_mem_ofList (h : x ∈ ofList key as) : x ∈ as :=
  (mem_insertAll h).resolve_left (List.not_mem_nil)

/-- An element that comes after all others is put at the end. -/
theorem insert_eq_concat [Std.TransOrd κ] (h : ∀ b ∈ as, compare (key b) (key a) = .lt) :
    insert key a as = as ++ [a] := by
  induction as with
  | nil => rfl
  | cons b bs ih =>
    have hgt : compare (key a) (key b) = .gt := Std.OrientedCmp.gt_of_lt (h b List.mem_cons_self)
    rw [insert, hgt, List.cons_append, ← ih fun c hc => h c (List.mem_cons_of_mem _ hc)]

theorem insertAll_of_ascends [Std.TransOrd κ] {start : List α} (h : Ascends key (start ++ as)) :
    insertAll key start as = start ++ as := by
  induction as generalizing start with
  | nil => exact (List.append_nil start).symm
  | cons a as ih =>
    obtain ⟨-, -, hbefore⟩ := List.pairwise_append.1 h
    have hinsert : insert key a start = start ++ [a] :=
      insert_eq_concat fun b hb => hbefore b hb a List.mem_cons_self
    have hnext : Ascends key ((start ++ [a]) ++ as) := by rwa [List.append_assoc]
    show insertAll key (insert key a start) as = _
    rw [hinsert, ih hnext, List.append_assoc]
    rfl

theorem ofList_of_ascends [Std.TransOrd κ] (h : Ascends key as) : ofList key as = as :=
  show insertAll key [] as = [] ++ as from insertAll_of_ascends h

theorem mem_erase : x ∈ erase key k as ↔ x ∈ as ∧ compare (key x) k ≠ .eq := by
  unfold erase
  simp [List.mem_filter]

theorem ascends_erase (h : Ascends key as) : Ascends key (erase key k as) := h.filter _

/-- Two elements of an ascending list whose keys compare equal are the same. -/
theorem eq_of_compare_eq [Std.TransOrd κ] (h : Ascends key as) {y : α} (hx : x ∈ as) (hy : y ∈ as)
    (heq : compare (key x) (key y) = .eq) : x = y := by
  induction as with
  | nil => cases hx
  | cons b bs ih =>
    obtain ⟨hb, hbs⟩ := List.pairwise_cons.1 h
    -- the first element comes before all others, so it compares equal to itself alone
    rcases List.mem_cons.1 hx with rfl | hxs
    · rcases List.mem_cons.1 hy with rfl | hys
      · rfl
      · have hlt := hb y hys
        rw [heq] at hlt
        cases hlt
    · rcases List.mem_cons.1 hy with rfl | hys
      · have hlt := hb x hxs
        rw [Std.OrientedCmp.eq_symm heq] at hlt
        cases hlt
      · exact ih hbs hxs hys

/-- In an ascending list a key finds the element that it belongs to. -/
theorem find?_eq_some_iff [Std.TransOrd κ] (h : Ascends key as) :
    find? key k as = some x ↔ x ∈ as ∧ compare (key x) k = .eq := by
  unfold find?
  constructor
  · intro hx
    exact ⟨List.mem_of_find?_eq_some hx, by simpa using List.find?_some hx⟩
  · rintro ⟨hx, heq⟩
    cases hfound : as.find? fun a => compare (key a) k == .eq with
    | none =>
      have := List.find?_eq_none.1 hfound x hx
      simp [heq] at this
    | some y =>
      have hy := List.mem_of_find?_eq_some hfound
      have hyk : compare (key y) k = .eq := by simpa using List.find?_some hfound
      rw [eq_of_compare_eq h hx hy (Std.TransCmp.eq_trans heq (Std.OrientedCmp.eq_symm hyk))]

/-- An insertion takes over from the element of the same key, and from no other. -/
theorem mem_insert_iff [Std.TransOrd κ] (h : Ascends key as) :
    x ∈ insert key a as ↔ x = a ∨ x ∈ as ∧ compare (key x) (key a) ≠ .eq := by
  have hascends := pairwise_insert key a h
  have hself := mem_insert_self key a as
  constructor
  · intro hx
    by_cases heq : compare (key x) (key a) = .eq
    · exact Or.inl (eq_of_compare_eq hascends hx hself heq)
    · rcases mem_insert key a hx with rfl | hx
      · exact Or.inl rfl
      · exact Or.inr ⟨hx, heq⟩
  · rintro (rfl | ⟨hx, hne⟩)
    · exact hself
    · exact mem_insert_of_mem hx hne

/-- Ascending lists with the same elements are the same. -/
theorem Ascends.ext [Std.TransOrd κ] {bs : List α} (has : Ascends key as) (hbs : Ascends key bs)
    (h : ∀ x, x ∈ as ↔ x ∈ bs) : as = bs := by
  have hnodup : ∀ {cs : List α}, Ascends key cs → cs.Nodup := by
    intro cs hcs
    refine hcs.imp ?_
    rintro b _ hlt rfl
    simp at hlt
  refine List.Perm.eq_of_pairwise ?_ has hbs
    ((List.perm_ext_iff_of_nodup (hnodup has) (hnodup hbs)).2 h)
  intro a b _ _ hab hba
  rw [Std.OrientedCmp.gt_of_lt hab] at hba
  cases hba

/-- Elements of different keys may be inserted in either order. -/
theorem insert_comm [Std.TransOrd κ] (h : Ascends key as) {a b : α}
    (hne : compare (key a) (key b) ≠ .eq) :
    insert key b (insert key a as) = insert key a (insert key b as) := by
  have hne' : compare (key b) (key a) ≠ .eq := fun heq => hne (Std.OrientedCmp.eq_symm heq)
  have ha := pairwise_insert key a h
  have hb := pairwise_insert key b h
  refine Ascends.ext (pairwise_insert key b ha) (pairwise_insert key a hb) fun x => ?_
  rw [mem_insert_iff ha, mem_insert_iff hb, mem_insert_iff h, mem_insert_iff h]
  constructor
  · rintro (rfl | ⟨rfl | ⟨hx, hxa⟩, hxb⟩)
    · exact Or.inr ⟨Or.inl rfl, hne'⟩
    · exact Or.inl rfl
    · exact Or.inr ⟨Or.inr ⟨hx, hxb⟩, hxa⟩
  · rintro (rfl | ⟨rfl | ⟨hx, hxb⟩, hxa⟩)
    · exact Or.inr ⟨Or.inl rfl, hne⟩
    · exact Or.inl rfl
    · exact Or.inr ⟨Or.inr ⟨hx, hxa⟩, hxb⟩

/-! ## The last of each key -/

/-- The element is in the list, and none after it has its key. -/
def IsLast (key : α → κ) (x : α) (as : List α) : Prop :=
  ∃ before after, as = before ++ x :: after ∧ ∀ y ∈ after, compare (key y) (key x) ≠ .eq

theorem IsLast.mem (h : IsLast key x as) : x ∈ as := by
  obtain ⟨before, after, rfl, -⟩ := h
  simp

theorem isLast_concat :
    IsLast key x (as ++ [a]) ↔ x = a ∨ IsLast key x as ∧ compare (key a) (key x) ≠ .eq := by
  constructor
  · rintro ⟨before, after, heq, hafter⟩
    rcases List.eq_nil_or_concat after with rfl | ⟨after, b, rfl⟩
    · obtain ⟨-, h⟩ := List.append_inj' heq rfl
      cases h
      exact Or.inl rfl
    · rw [List.concat_eq_append, ← List.cons_append, ← List.append_assoc] at heq
      obtain ⟨rfl, h⟩ := List.append_inj' heq rfl
      cases h
      exact Or.inr ⟨⟨before, after, rfl, fun y hy => hafter y (by simp [hy])⟩, hafter a (by simp)⟩
  · rintro (rfl | ⟨⟨before, after, rfl, hafter⟩, hne⟩)
    · exact ⟨as, [], rfl, by simp⟩
    · refine ⟨before, after ++ [a], by simp, fun y hy => ?_⟩
      rcases List.mem_append.1 hy with hy | hy
      · exact hafter y hy
      · rw [List.mem_singleton.1 hy]
        exact hne

/-- Every key that occurs has a last element. -/
theorem exists_isLast [Std.TransOrd κ] (key : α → κ) (hx : x ∈ as) :
    ∃ y, IsLast key y as ∧ compare (key y) (key x) = .eq := by
  induction as using List.reverseRecOn with
  | nil => cases hx
  | append_singleton as a ih =>
    by_cases heq : compare (key a) (key x) = .eq
    · exact ⟨a, isLast_concat.2 (Or.inl rfl), heq⟩
    · have hx : x ∈ as := by
        rcases List.mem_append.1 hx with hx | hx
        · exact hx
        · rw [List.mem_singleton.1 hx, Std.compare_self] at heq
          exact absurd rfl heq
      obtain ⟨y, hy, hyx⟩ := ih hx
      refine ⟨y, isLast_concat.2 (Or.inr ⟨hy, fun hay => ?_⟩), hyx⟩
      exact heq (Std.TransCmp.eq_trans hay hyx)

/-- Where elements of one key are the same, each of them is the last. -/
theorem isLast_iff_mem [Std.TransOrd κ]
    (h : ∀ x ∈ as, ∀ y ∈ as, compare (key x) (key y) = .eq → x = y) :
    IsLast key x as ↔ x ∈ as := by
  refine ⟨IsLast.mem, fun hx => ?_⟩
  obtain ⟨y, hy, heq⟩ := exists_isLast key hx
  rwa [h y hy.mem x hx heq] at hy

/-- What is inserted takes over from what was there, and the last of a key from those before it. -/
theorem mem_insertAll_iff [Std.TransOrd κ] {start : List α} (h : Ascends key start) :
    x ∈ insertAll key start as ↔
      IsLast key x as ∨ x ∈ start ∧ ∀ y ∈ as, compare (key y) (key x) ≠ .eq := by
  induction as using List.reverseRecOn with
  | nil => simp [insertAll, IsLast]
  | append_singleton as a ih =>
    have hconcat : insertAll key start (as ++ [a]) = insert key a (insertAll key start as) := by
      simp [insertAll]
    have hne : compare (key x) (key a) ≠ .eq ↔ compare (key a) (key x) ≠ .eq :=
      not_congr ⟨Std.OrientedCmp.eq_symm, Std.OrientedCmp.eq_symm⟩
    rw [hconcat, mem_insert_iff (pairwise_insertAll key as h), ih, isLast_concat, hne]
    simp only [List.forall_mem_append, List.forall_mem_singleton]
    tauto

theorem mem_ofList_iff [Std.TransOrd κ] : x ∈ ofList key as ↔ IsLast key x as := by
  rw [ofList, mem_insertAll_iff List.Pairwise.nil]
  simp

/-- Lists with the same elements, one of each key, are put into the same order. -/
theorem ofList_eq_of_mem [Std.TransOrd κ] {bs : List α}
    (hdistinct : ∀ x ∈ bs, ∀ y ∈ bs, compare (key x) (key y) = .eq → x = y)
    (h : ∀ x, x ∈ as ↔ x ∈ bs) : ofList key as = ofList key bs := by
  refine (pairwise_ofList key as).ext (pairwise_ofList key bs) fun x => ?_
  have hdistinct' : ∀ x ∈ as, ∀ y ∈ as, compare (key x) (key y) = .eq → x = y :=
    fun x hx y hy => hdistinct x ((h x).1 hx) y ((h y).1 hy)
  rw [mem_ofList_iff, mem_ofList_iff, isLast_iff_mem hdistinct', isLast_iff_mem hdistinct, h]

end ClusterConsole.Ascending
