/-
Abbreviations are stable (`abbreviation_stable`). Typing more of the command that an abbreviation
stands for never leads to another command, because selection is transitive in the number of segments
and in their letters at once; and a command that is added later can make an abbreviation ambiguous
but never move it to another command.
-/
import ClusterConsole.Proofs.Registry.Arrivals
import ClusterConsole.Proofs.Resolution.Cycle

namespace ClusterConsole

/-- An element of a new key is one more element. -/
theorem Ascending.perm_insert {α κ : Type} [Ord κ] {key : α → κ} {a : α} {as : List α}
    (h : ∀ b ∈ as, compare (key a) (key b) ≠ .eq) : (insert key a as).Perm (a :: as) := by
  induction as with
  | nil => exact .refl _
  | cons b bs ih =>
    unfold insert
    split
    · exact .refl _
    · rename_i heq
      exact absurd heq (h b (by simp))
    · have hrest := ih fun b' hb' => h b' (by simp [hb'])
      exact (hrest.cons b).trans (.swap a b bs)

namespace Registry

variable {ρ : Type} {registry : Registry ρ} {q : CommandPath} {r : Registration}

theorem single_ne_nil (q : CommandPath) : [q] ≠ [] := List.cons_ne_nil q []

/-- The registrations that the registry finds for a path. -/
def found (registry : Registry ρ) (q : CommandPath) : List Registration :=
  (registry.answer (.lookup ⟨[q], single_ne_nil q, none⟩)).catalog.entries

/-- The registry has no registration for a path. -/
def Lacks (registry : Registry ρ) (p : CommandPath) : Prop :=
  ∀ e ∈ registry.catalog.entries, e.path ≠ p

/-- The registry with one more registration, as it comes from a handler. -/
def grown (registry : Registry ρ) (r : Registration) : Registry ρ :=
  registry.register (Response.ofList [r])

/-- A registration for a new path is found by the paths that select it, besides what they have found
before. -/
theorem found_grown (h : registry.Lacks r.path) :
    ((registry.grown r).found q).Perm
      (if r.path.selectedBy q then r :: registry.found q else registry.found q) := by
  have hperm : (registry.catalog.add r).entries.Perm (r :: registry.catalog.entries) :=
    Ascending.perm_insert fun e he heq => h e he (CommandPath.compare_eq_iff.1 heq).symm
  have hfound : ∀ registry' : Registry ρ, registry'.found q =
      registry'.catalog.entries.filter fun e => e.path.selectedBy q := by
    intro registry'
    simp [found, answer, Catalog.select]
  have hgrown : (registry.grown r).catalog = registry.catalog.add r := rfl
  rw [hfound, hfound, hgrown, ← List.filter_cons (p := fun e : Registration => e.path.selectedBy q)]
  exact hperm.filter _

/-- If an abbreviation finds one registration only, then whatever lies between the abbreviation and
the path of the registration finds that registration only, and so does the path itself. When a
registration for a new path is added, the abbreviation still finds what it has found, either alone
or together with the new one; and if it has found nothing, it finds nothing or the new one. -/
theorem abbreviation_stable (registry : Registry ρ) (q : CommandPath) :
    (∀ r, registry.found q = [r] →
      (∀ q', q'.selectedBy q = true → r.path.selectedBy q' = true → registry.found q' = [r]) ∧
      registry.found r.path = [r] ∧
      ∀ new, registry.Lacks new.path → (registry.grown new).found q = [r] ∨
        ((registry.grown new).found q).Perm [r, new]) ∧
    (registry.found q = [] → ∀ new, registry.Lacks new.path →
      (registry.grown new).found q = [] ∨ (registry.grown new).found q = [new]) := by
  constructor
  · intro r hr
    refine ⟨fun q' => Catalog.select_of_between hr, Catalog.select_path_of_select hr, ?_⟩
    intro new hnew
    have hgrown := found_grown (q := q) hnew
    rw [hr] at hgrown
    split_ifs at hgrown
    · exact Or.inr (hgrown.trans (.swap r new []))
    · exact Or.inl hgrown.eq_singleton
  · intro hnone new hnew
    have hgrown := found_grown (q := q) hnew
    rw [hnone] at hgrown
    split_ifs at hgrown
    · exact Or.inr hgrown.eq_singleton
    · exact Or.inl hgrown.eq_nil

/-- In a registry of `edit`, `echo` and the requests for help about them, `ed` finds `edit` alone,
and so does `edi`; with `editor` it finds both. -/
theorem abbreviation_stable_edit :
    let path (t : Text) (h : t ≠ []) : CommandPath := ⟨[t], by simp, by simpa using h⟩
    let edit : Registration := ⟨⟨"echo", 0⟩, path "edit" (by decide), none, none⟩
    let editor : Registration := ⟨⟨"echo", 0⟩, path "editor" (by decide), none, none⟩
    echoRegistry.found (path "ed" (by decide)) = [edit] ∧
      echoRegistry.Lacks editor.path ∧
      echoRegistry.found (path "edi" (by decide)) = [edit] ∧
      ((echoRegistry.grown editor).found (path "ed" (by decide))).Perm [edit, editor] := by
  intro path edit editor
  have hfound : echoRegistry.found (path "ed" (by decide)) = [edit] := by decide +kernel
  have hlacks : echoRegistry.Lacks editor.path := by unfold Lacks; decide +kernel
  have hmore : (echoRegistry.grown editor).found (path "ed" (by decide)) ≠ [edit] := by
    decide +kernel
  have hstable := (abbreviation_stable echoRegistry (path "ed" (by decide))).1 edit hfound
  exact ⟨hfound, hlacks, hstable.1 _ (by decide) (by decide),
    (hstable.2.2 editor hlacks).resolve_left hmore⟩

end Registry

end ClusterConsole
