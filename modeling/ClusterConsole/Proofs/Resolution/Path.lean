/-
The two ways to read a path, from the tokens of a line and from the words of a text, agree on every
text that has neither quotes nor backslashes, and a path is read back from its text exactly when its
segments are words that begin no options (`paths_agree`).
-/
import ClusterConsole.Proofs.Resolution.Settling

namespace ClusterConsole

namespace CommandPath

open Text

/-- A segment that a text can spell: it has no blanks and begins no options. -/
def Spellable (segment : Text) : Prop :=
  (∀ c ∈ segment, isBlank c = false) ∧ beginsOptions segment = false

theorem spellable_of_parse {t : Text} {p : CommandPath} (h : parse t = .ok p) :
    ∀ s ∈ p.segments, Spellable s := by
  intro s hs
  rw [segments_of_ofSegments h] at hs
  have hbegins := List.mem_takeWhile_imp hs
  exact ⟨(mem_words ((List.takeWhile_sublist _).subset hs)).2, by simpa using hbegins⟩

theorem parse_text {p : CommandPath} (h : ∀ s ∈ p.segments, Spellable s) :
    parse p.text = .ok p := by
  have hwords : words p.text = p.segments :=
    words_join fun s hs => ⟨p.filled s hs, (h s hs).1⟩
  rw [parse, hwords, leading_eq_self fun s hs => (h s hs).2, ofSegments_segments]

/-- The two ways of reading a path agree, errors included; a path that has been read is read back
from its text; and any path is exactly when no segment of it has a blank or begins with `-`. -/
theorem paths_agree :
    (∀ t : Text, (∀ c ∈ t, c ≠ '\'' ∧ c ≠ '"' ∧ c ≠ '\\') →
      Token.tokenize t = .ok ((t.splitOnP isBlank).filter (· ≠ [])) ∧
        ∀ tokens, Token.tokenize t = .ok tokens → ofTokens tokens = parse t) ∧
      (∀ (t : Text) (p : CommandPath), parse t = .ok p → parse p.text = .ok p) ∧
      ∀ p : CommandPath, parse p.text = .ok p ↔
        ∀ s ∈ p.segments, (∀ c ∈ s, isBlank c = false) ∧ s.head? ≠ some '-' := by
  have hspellable : ∀ s : Text, Spellable s ↔ (∀ c ∈ s, isBlank c = false) ∧ s.head? ≠ some '-' := by
    intro s
    unfold Spellable beginsOptions
    rw [beq_eq_false_iff_ne]
  refine ⟨fun t ht => ⟨?_, fun tokens h => ?_⟩, fun t p h => ?_, fun p => ?_⟩
  · rw [← words_eq_filter, Token.tokenize_words ht]
  · rw [Token.tokenize_words ht] at h
    cases h
    rfl
  · exact parse_text (spellable_of_parse h)
  · simp only [← hspellable]
    exact ⟨spellable_of_parse, parse_text⟩

/-- Blanks of three kinds and an option. -/
theorem paths_agree_option :
    (∀ c ∈ ("\u3000cluster\t list -v x" : Text), c ≠ '\'' ∧ c ≠ '"' ∧ c ≠ '\\') ∧
      Token.tokenize "\u3000cluster\t list -v x" = .ok ["cluster", "list", "-v", "x"] ∧
      ofTokens ["cluster", "list", "-v", "x"] = parse "\u3000cluster\t list -v x" := by
  have hall : ("\u3000cluster\t list -v x" : Text).all
      (fun c => decide (c ≠ '\'' ∧ c ≠ '"' ∧ c ≠ '\\')) = true := by decide +kernel
  have hchars := fun c hc => of_decide_eq_true (List.all_eq_true.1 hall c hc)
  have htokens : Token.tokenize "\u3000cluster\t list -v x" = .ok ["cluster", "list", "-v", "x"] := by
    decide +kernel
  exact ⟨hchars, htokens, (paths_agree.1 _ hchars).2 _ htokens⟩

end CommandPath

end ClusterConsole
