/-
Lines, and the text that they make up. A text without carriage returns is put together again from
its lines, all but a newline at its very end (`join_lines`).
-/
import ClusterConsole.Text
import Mathlib.Tactic

namespace ClusterConsole.Text

/-! ## Joining lines -/

/-- What stands after a line when the given lines follow it. -/
def after (lines : List Text) : Text :=
  if lines = [] then [] else '\n' :: join "\n" lines

theorem join_cons_eq (line : Text) (lines : List Text) :
    join "\n" (line :: lines) = line ++ after lines := by
  cases lines with
  | nil => simp [after, join]
  | cons next lines => simp [after, join, List.intercalate_cons_cons]

theorem join_cons_of_ne_nil {lines : List Text} (h : lines ≠ []) (line : Text) :
    join "\n" (line :: lines) = line ++ '\n' :: join "\n" lines := by
  rw [join_cons_eq, after, if_neg h]

theorem tail_after (lines : List Text) : (after lines).tail = join "\n" lines := by
  unfold after
  split_ifs with h
  · rw [h]
    rfl
  · rfl

theorem head?_after (lines : List Text) : ∀ c ∈ (after lines).head?, c = '\n' := by
  unfold after
  split_ifs <;> simp

theorem join_append_blank {lines : List Text} (h : lines ≠ []) :
    join "\n" (lines ++ [[]]) = join "\n" lines ++ ['\n'] := by
  induction lines with
  | nil => exact absurd rfl h
  | cons line lines ih =>
    have hafter : after (lines ++ [[]]) = after lines ++ ['\n'] := by
      cases lines with
      | nil => rfl
      | cons next lines => exact congrArg ('\n' :: ·) (ih (List.cons_ne_nil next lines))
    rw [List.cons_append, join_cons_eq, join_cons_eq, hafter, List.append_assoc]

/-- What stands in a joined text stands in one of the texts or in the separator between them. -/
theorem mem_of_mem_join {separator : Text} {texts : List Text} {c : Char}
    (h : c ∈ join separator texts) : c ∈ separator ∨ ∃ t ∈ texts, c ∈ t := by
  induction texts with
  | nil => cases h
  | cons t texts ih =>
    cases texts with
    | nil => exact Or.inr ⟨t, by simp, by simpa [join] using h⟩
    | cons u texts =>
      rw [join, List.intercalate_cons_cons, List.mem_append, List.mem_append] at h
      rcases h with (hc | hc) | hc
      · exact Or.inr ⟨t, by simp, hc⟩
      · exact Or.inl hc
      · rcases ih hc with hc | ⟨v, hv, hc⟩
        · exact Or.inl hc
        · exact Or.inr ⟨v, List.mem_cons_of_mem t hv, hc⟩

/-! ## Cutting into lines -/

/-- Splitting a text is splitting a list at an element. -/
theorem splitOn_eq (separator : Char) (t : Text) :
    splitOn separator t = List.splitOn separator t := by
  induction t with
  | nil => rfl
  | cons c cs ih =>
    rw [splitOn, ih, List.splitOn_eq_splitOnP, List.splitOn_eq_splitOnP,
      List.splitOnP_cons_eq_if_modifyHead]
    by_cases hc : c = separator
    · simp [hc]
    · rw [if_neg hc, if_neg (by simpa using hc)]
      cases hcs : List.splitOnP (· == separator) cs with
      | nil => exact absurd hcs (List.splitOnP_ne_nil _ _)
      | cons piece pieces => rfl

theorem join_splitOn (separator : Char) (t : Text) :
    join [separator] (splitOn separator t) = t := by
  rw [splitOn_eq]
  exact List.intercalate_splitOn separator

theorem splitOn_append_separator (separator : Char) (t : Text) :
    splitOn separator (t ++ [separator]) = splitOn separator t ++ [[]] := by
  induction t with
  | nil => simp [splitOn]
  | cons c t ih =>
    rw [List.cons_append, splitOn, splitOn, ih]
    split_ifs
    · rfl
    · cases h : splitOn separator t with
      | nil => exact absurd h (splitOn_ne_nil separator t)
      | cons p ps => rfl

theorem mem_of_mem_splitOn {separator c : Char} {t p : Text} (hp : p ∈ splitOn separator t)
    (hc : c ∈ p) : c ∈ t := by
  induction t generalizing p with
  | nil =>
    rw [splitOn, List.mem_singleton] at hp
    exact hp ▸ hc
  | cons d t ih =>
    have htail : ∀ q ∈ splitOn separator t, c ∈ q → c ∈ d :: t := fun q hq h =>
      List.mem_cons_of_mem d (ih hq h)
    rw [splitOn] at hp
    split_ifs at hp
    · rcases List.mem_cons.1 hp with rfl | hp
      · cases hc
      · exact htail p hp hc
    · cases h : splitOn separator t with
      | nil => exact absurd h (splitOn_ne_nil separator t)
      | cons q ps =>
        rw [h] at hp htail
        rcases List.mem_cons.1 hp with rfl | hp
        · rcases List.mem_cons.1 hc with rfl | hc
          · exact List.mem_cons_self
          · exact htail q List.mem_cons_self hc
        · exact htail p (List.mem_cons_of_mem q hp) hc

theorem dropFinalReturn_eq_self {t : Text} (h : '\r' ∉ t) : dropFinalReturn t = t := by
  unfold dropFinalReturn
  split
  · rename_i r heq
    exact absurd (List.mem_reverse.1 (heq ▸ List.mem_cons_self)) h
  · rfl

/-- The lines of a text that ends with a newline, put together again. -/
theorem join_lines {t : Text} (h : '\r' ∉ t) : join ['\n'] (lines (t ++ ['\n'])) = t := by
  have hlines : lines (t ++ ['\n']) = splitOn '\n' t := by
    unfold lines
    simp only [splitOn_append_separator, List.getLast?_append, List.getLast?_singleton,
      Option.some_or, Option.getD_some, if_true, List.dropLast_concat, List.append_nil]
    have hpieces : ∀ p ∈ splitOn '\n' t, dropFinalReturn p = id p := fun p hp =>
      dropFinalReturn_eq_self fun hr => h (mem_of_mem_splitOn hp hr)
    rw [List.map_congr_left hpieces, List.map_id]
  rw [hlines, join_splitOn]

/-- Each line of a text that ends with a newline is followed by one. -/
theorem flatMap_lines {t : Text} (h : '\r' ∉ t) :
    (lines (t ++ ['\n'])).flatMap (· ++ ['\n']) = t ++ ['\n'] := by
  have hjoin : ∀ ls : List Text, ls.flatMap (· ++ ['\n']) = join "\n" (ls ++ [[]]) := by
    intro ls
    induction ls with
    | nil => rfl
    | cons l ls ih =>
      rw [List.flatMap_cons, ih, List.cons_append, join_cons_of_ne_nil (by simp)]
      simp
  have hne : lines (t ++ ['\n']) ≠ [] := by
    simp [lines, splitOn_append_separator, splitOn_ne_nil]
  rw [hjoin, join_append_blank hne]
  exact congrArg (· ++ ['\n']) (join_lines h)

end ClusterConsole.Text
