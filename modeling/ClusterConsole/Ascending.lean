/-
Lists kept in ascending order of a key, at most one element per key. `insert` puts an element in
its place and takes over from an element of the same key; `find?` looks a key up; `ofList` inserts
from left to right, so the last element of a key stays. `pairwise_insert` and `pairwise_ofList` say
that the keys then ascend.
-/
namespace ClusterConsole.Ascending

variable {α κ : Type} [Ord κ]

/-- The list with `a` in its place, instead of the element that had the same key. -/
def insert (key : α → κ) (a : α) : List α → List α
  | [] => [a]
  | b :: bs =>
    match compare (key a) (key b) with
    | .lt => a :: b :: bs
    | .eq => a :: bs
    | .gt => b :: insert key a bs

/-- The elements inserted from left to right into `start`. -/
def insertAll (key : α → κ) (start : List α) (as : List α) : List α :=
  as.foldl (fun l a => insert key a l) start

/-- The elements in ascending order of their keys; of several with one key, the last. -/
def ofList (key : α → κ) (as : List α) : List α := insertAll key [] as

/-- The element with key `k`. -/
def find? (key : α → κ) (k : κ) (as : List α) : Option α :=
  as.find? fun a => compare (key a) k == .eq

/-- The list without the element that has key `k`. -/
def erase (key : α → κ) (k : κ) (as : List α) : List α :=
  as.filter fun a => !(compare (key a) k == .eq)

/-! ## Order -/

/-- The keys ascend strictly. -/
def Ascends (key : α → κ) (as : List α) : Prop :=
  as.Pairwise fun a b => compare (key a) (key b) = .lt

theorem mem_insert (key : α → κ) (a : α) {as : List α} {x : α} (h : x ∈ insert key a as) :
    x = a ∨ x ∈ as := by
  induction as with
  | nil => simpa [insert] using h
  | cons b bs ih =>
    unfold insert at h
    split at h
    · simpa using h
    · rcases List.mem_cons.mp h with rfl | h
      · exact Or.inl rfl
      · exact Or.inr (List.mem_cons_of_mem _ h)
    · rcases List.mem_cons.mp h with rfl | h
      · exact Or.inr (by simp)
      · exact (ih h).imp_right (List.mem_cons_of_mem _)

theorem pairwise_insert [Std.TransOrd κ] (key : α → κ) (a : α) {as : List α}
    (h : Ascends key as) : Ascends key (insert key a as) := by
  induction as with
  | nil => simp [insert, Ascends]
  | cons b bs ih =>
    obtain ⟨hb, hbs⟩ := List.pairwise_cons.mp h
    unfold insert
    split
    · rename_i hlt
      refine List.pairwise_cons.mpr ⟨fun x hx => ?_, h⟩
      rcases List.mem_cons.mp hx with rfl | hx
      · exact hlt
      · exact Std.TransCmp.lt_trans hlt (hb x hx)
    · rename_i heq
      refine List.pairwise_cons.mpr ⟨fun x hx => ?_, hbs⟩
      exact Std.TransCmp.lt_of_eq_of_lt heq (hb x hx)
    · rename_i hgt
      refine List.pairwise_cons.mpr ⟨fun x hx => ?_, ih hbs⟩
      rcases mem_insert key a hx with rfl | hx
      · exact Std.OrientedCmp.lt_of_gt hgt
      · exact hb x hx

theorem pairwise_insertAll [Std.TransOrd κ] (key : α → κ) {start : List α} (as : List α)
    (h : Ascends key start) : Ascends key (insertAll key start as) := by
  induction as generalizing start with
  | nil => exact h
  | cons a as ih => exact ih (pairwise_insert key a h)

/-- The keys of a list made by insertion ascend. -/
theorem pairwise_ofList [Std.TransOrd κ] (key : α → κ) (as : List α) :
    Ascends key (ofList key as) :=
  pairwise_insertAll key as List.Pairwise.nil

end ClusterConsole.Ascending
