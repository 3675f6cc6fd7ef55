/-
What trimming takes away are blanks, and which end is trimmed first makes no difference
(`trim_eq_trimStart`). Trimming leaves a text as it is exactly when neither its first nor its last
character is a blank (`trim_eq_self_iff`).

The words of a text are the pieces between its blanks, less the empty ones (`words_eq_filter`). Words
with a space between neighbours are read back from the text that they make up (`words_join`).
-/
import ClusterConsole.Text.Blank
import Mathlib.Data.List.TakeWhile
import Mathlib.Tactic

namespace ClusterConsole.Text

theorem trimStart_eq_self_iff {t : Text} :
    trimStart t = t ↔ ∀ c ∈ t.head?, isBlank c = false := by
  cases t with
  | nil => simp [trimStart]
  | cons c cs =>
    rw [trimStart, List.dropWhile_cons]
    cases hc : isBlank c with
    | false => simp [hc]
    | true =>
      have hle : (cs.dropWhile isBlank).length ≤ cs.length :=
        (List.dropWhile_suffix isBlank).length_le
      constructor
      · intro h
        have hlen := congrArg List.length h
        simp only [if_true, List.length_cons] at hlen
        omega
      · intro h
        have := h c rfl
        simp [hc] at this

theorem trimEnd_eq_self_iff {t : Text} :
    trimEnd t = t ↔ ∀ c ∈ t.getLast?, isBlank c = false := by
  have h : trimEnd t = t ↔ trimStart t.reverse = t.reverse := by
    unfold trimEnd trimStart
    constructor
    · intro h
      rw [← List.reverse_reverse (List.dropWhile _ _), h]
    · intro h
      rw [h, List.reverse_reverse]
  rw [h, trimStart_eq_self_iff, List.head?_reverse]

theorem length_trimEnd_le (t : Text) : (trimEnd t).length ≤ t.length := by
  have h := (List.dropWhile_suffix (l := t.reverse) isBlank).length_le
  simpa [trimEnd] using h

theorem exists_trimStart (t : Text) :
    ∃ blanks, t = blanks ++ trimStart t ∧ ∀ c ∈ blanks, isBlank c = true :=
  ⟨t.takeWhile isBlank, List.takeWhile_append_dropWhile.symm, fun _ hc => List.mem_takeWhile_imp hc⟩

theorem exists_trimEnd (t : Text) :
    ∃ blanks, t = trimEnd t ++ blanks ∧ ∀ c ∈ blanks, isBlank c = true := by
  obtain ⟨blanks, ht, hblanks⟩ := exists_trimStart t.reverse
  refine ⟨blanks.reverse, ?_, fun c hc => hblanks c (List.mem_reverse.1 hc)⟩
  rw [← List.reverse_inj, List.reverse_append, List.reverse_reverse, trimEnd, List.reverse_reverse]
  exact ht

/-- Which end is trimmed first makes no difference. -/
theorem trim_eq_trimStart (t : Text) : trim t = trimStart (trimEnd t) := by
  obtain ⟨blanks, ht, hblanks⟩ := exists_trimStart t
  have hstart : trimStart (trimStart t) = trimStart t := dropWhile_idem isBlank t
  unfold trim
  generalize trimStart t = s at ht hstart
  subst ht
  by_cases hs : trimEnd s = []
  · -- nothing but blanks
    have hall : trimEnd (blanks ++ s) = [] := by
      have hrev : s.reverse.dropWhile isBlank = [] := List.reverse_eq_nil_iff.1 hs
      rw [trimEnd, List.reverse_eq_nil_iff, List.reverse_append, List.dropWhile_append, hrev]
      simpa [List.dropWhile_eq_nil_iff] using hblanks
    rw [hs, hall]
    rfl
  · have hkeep : trimEnd (blanks ++ s) = blanks ++ trimEnd s := by
      have hrev : s.reverse.dropWhile isBlank ≠ [] := fun h => hs (List.reverse_eq_nil_iff.2 h)
      rw [trimEnd, List.reverse_append, List.dropWhile_append, if_neg (by simpa using hrev)]
      simp [trimEnd]
    have hdrop : trimStart (blanks ++ trimEnd s) = trimStart (trimEnd s) :=
      List.dropWhile_append_of_pos hblanks
    rw [hkeep, hdrop, trimStart_trimEnd hstart]

theorem trim_append_left {blanks : Text} (h : ∀ c ∈ blanks, isBlank c = true) (t : Text) :
    trim (blanks ++ t) = trim t := by
  rw [trim, trimStart, List.dropWhile_append_of_pos h]
  rfl

theorem trim_append_right {blanks : Text} (t : Text) (h : ∀ c ∈ blanks, isBlank c = true) :
    trim (t ++ blanks) = trim t := by
  have hend : trimEnd (t ++ blanks) = trimEnd t := by
    rw [trimEnd, List.reverse_append, List.dropWhile_append_of_pos (by simpa using h)]
    rfl
  rw [trim_eq_trimStart, hend, ← trim_eq_trimStart]

theorem trimStart_of_trim {t : Text} (h : trim t = t) : trimStart t = t := by
  have hsuffix : trimStart t <:+ t := List.dropWhile_suffix isBlank
  have hle := length_trimEnd_le (trimStart t)
  rw [← trim, h] at hle
  exact hsuffix.eq_of_length_le hle

/-- A text is trimmed when it neither begins nor ends with a blank. -/
theorem trim_eq_self_iff {t : Text} :
    trim t = t ↔
      (∀ c ∈ t.head?, isBlank c = false) ∧ ∀ c ∈ t.getLast?, isBlank c = false := by
  rw [← trimStart_eq_self_iff, ← trimEnd_eq_self_iff]
  constructor
  · intro h
    have hs := trimStart_of_trim h
    refine ⟨hs, ?_⟩
    rw [trim, hs] at h
    exact h
  · rintro ⟨hs, he⟩
    rw [trim, hs, he]

/-! ## Words -/

variable {c : Char} {cs : Text}

theorem words_eq (t : Text) : words t = consWord (wordsFrom t).1 (wordsFrom t).2 := rfl

theorem wordsFrom_blank (hc : isBlank c = true) : wordsFrom (c :: cs) = ([], words cs) := by
  simp only [wordsFrom, if_pos hc]
  rfl

theorem wordsFrom_cons (hc : ¬ isBlank c = true) :
    wordsFrom (c :: cs) = (c :: (wordsFrom cs).1, (wordsFrom cs).2) := by
  simp only [wordsFrom, if_neg hc]

theorem consWord_eq (w : Text) (ws : List Text) : consWord w ws = [w].filter (· ≠ []) ++ ws := by
  unfold consWord
  by_cases hw : w = [] <;> simp [hw]

/-- The characters up to the first blank are the first piece, and the words after it come from the
others. -/
theorem exists_splitOnP (t : Text) :
    ∃ pieces, t.splitOnP isBlank = (wordsFrom t).1 :: pieces ∧
      (wordsFrom t).2 = pieces.filter (· ≠ []) := by
  induction t with
  | nil => exact ⟨[], rfl, rfl⟩
  | cons c cs ih =>
    obtain ⟨pieces, hsplit, hwords⟩ := ih
    rw [List.splitOnP_cons_eq_if_modifyHead, hsplit]
    by_cases hc : isBlank c = true
    · refine ⟨(wordsFrom cs).1 :: pieces, ?_, ?_⟩
      · rw [if_pos hc, wordsFrom_blank hc]
      · rw [wordsFrom_blank hc, words_eq, consWord_eq, hwords, ← List.filter_append]
        rfl
    · refine ⟨pieces, ?_, ?_⟩
      · rw [if_neg hc, wordsFrom_cons hc]
        rfl
      · rw [wordsFrom_cons hc, hwords]

theorem words_eq_filter (t : Text) : words t = (t.splitOnP isBlank).filter (· ≠ []) := by
  obtain ⟨pieces, hsplit, hwords⟩ := exists_splitOnP t
  rw [hsplit, words_eq, consWord_eq, hwords, ← List.filter_append]
  rfl

theorem words_append (hc : isBlank c = true) (t u : Text) :
    words (t ++ c :: u) = words t ++ words u := by
  rw [words_eq_filter, words_eq_filter, words_eq_filter, List.splitOnP_append_cons t u hc,
    List.filter_append]

theorem words_singleton {w : Text} (hne : w ≠ []) (h : ∀ c ∈ w, isBlank c = false) :
    words w = [w] := by
  rw [words_eq_filter, List.splitOnP_eq_singleton h]
  simp [hne]

theorem words_join {ws : List Text} (h : ∀ w ∈ ws, w ≠ [] ∧ ∀ c ∈ w, isBlank c = false) :
    words (join " " ws) = ws := by
  induction ws with
  | nil => rfl
  | cons w ws ih =>
    obtain ⟨⟨hne, hblank⟩, hrest⟩ := List.forall_mem_cons.1 h
    cases ws with
    | nil => simpa [join] using words_singleton hne hblank
    | cons next ws =>
      have hjoin : join " " (w :: next :: ws) = w ++ ' ' :: join " " (next :: ws) := by
        simp [join, List.intercalate_cons_cons]
      rw [hjoin, words_append (by decide), words_singleton hne hblank, ih hrest]
      rfl

theorem mem_consWord {w v : Text} {ws : List Text} (h : v ∈ consWord w ws) :
    (v = w ∧ w ≠ []) ∨ v ∈ ws := by
  unfold consWord at h
  split_ifs at h with hw
  · exact Or.inr h
  · rcases List.mem_cons.1 h with rfl | h
    · exact Or.inl ⟨rfl, hw⟩
    · exact Or.inr h

/-- A word is not empty, and it has no blanks. -/
theorem mem_words {t w : Text} (h : w ∈ words t) : w ≠ [] ∧ ∀ c ∈ w, isBlank c = false := by
  have key : ∀ t : Text, (∀ c ∈ (wordsFrom t).1, isBlank c = false) ∧
      ∀ w ∈ (wordsFrom t).2, w ≠ [] ∧ ∀ c ∈ w, isBlank c = false := by
    intro t
    induction t with
    | nil => exact ⟨by rintro c ⟨⟩, by rintro w ⟨⟩⟩
    | cons c cs ih =>
      obtain ⟨hfirst, hlater⟩ := ih
      by_cases hc : isBlank c = true
      · rw [wordsFrom_blank hc]
        refine ⟨by rintro c ⟨⟩, fun w hw => ?_⟩
        rcases mem_consWord hw with ⟨rfl, hne⟩ | hw
        · exact ⟨hne, hfirst⟩
        · exact hlater w hw
      · rw [wordsFrom_cons hc]
        refine ⟨fun d hd => ?_, hlater⟩
        rcases List.mem_cons.1 hd with rfl | hd
        · simpa using hc
        · exact hfirst d hd
  rcases mem_consWord h with ⟨rfl, hne⟩ | hw
  · exact ⟨hne, (key t).1⟩
  · exact (key t).2 w hw

end ClusterConsole.Text
