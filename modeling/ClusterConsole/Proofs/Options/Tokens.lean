/-
How tokens read up to the first `--` and after it. A command that declares no options refuses every
flag, so reading succeeds exactly if there is none, and then all tokens but that `--` are positional
arguments; otherwise the first flag is the one that the error names (`parse_undeclared`).
-/
import ClusterConsole.Proofs.Options.Rendering

namespace ClusterConsole.Options

variable {options : List CliOption} {st : State} {token : Text} {tokens rest : List Text}

/-! ## Before and after the marker -/

/-- The token after which every token is a positional argument. -/
def marker : Text := ['-', '-']

/-- The tokens before the first marker. -/
def beforeMarker (tokens : List Text) : List Text := tokens.takeWhile (· != marker)

/-- The tokens after the first marker; there are none if there is no marker. -/
def afterMarker (tokens : List Text) : List Text := (tokens.dropWhile (· != marker)).tail

@[simp] theorem beforeMarker_nil : beforeMarker [] = [] := rfl

@[simp] theorem afterMarker_nil : afterMarker [] = [] := rfl

@[simp] theorem beforeMarker_marker : beforeMarker (marker :: rest) = [] := by simp [beforeMarker]

@[simp] theorem afterMarker_marker : afterMarker (marker :: rest) = rest := by simp [afterMarker]

theorem beforeMarker_cons (h : token ≠ marker) :
    beforeMarker (token :: rest) = token :: beforeMarker rest := by
  simp [beforeMarker, h]

theorem afterMarker_cons (h : token ≠ marker) : afterMarker (token :: rest) = afterMarker rest := by
  simp [afterMarker, h]

/-! ## Flags and other tokens -/

/-- Whether a token is no flag: it does not begin with a hyphen, or it is nothing but one. -/
def isPlain (token : Text) : Bool := token == ['-'] || token.head? != some '-'

/-- What a token that is neither a marker nor plain looks like. -/
theorem exists_of_not_isPlain (h : isPlain token = false) (hmarker : token ≠ marker) :
    (∃ body, body ≠ [] ∧ token = '-' :: '-' :: body) ∨ ∃ c cs, c ≠ '-' ∧ token = '-' :: c :: cs := by
  simp only [isPlain, Bool.or_eq_false_iff, beq_eq_false_iff_ne, bne_eq_false_iff_eq] at h
  obtain ⟨hlone, hhead⟩ := h
  obtain ⟨cs, rfl⟩ := List.head?_eq_some_iff.1 hhead
  cases cs with
  | nil => exact absurd rfl hlone
  | cons c cs =>
    by_cases hc : c = '-'
    · subst hc
      exact Or.inl ⟨cs, fun hnil => hmarker (by rw [hnil]; rfl), rfl⟩
    · exact Or.inr ⟨c, cs, hc, rfl⟩

theorem lexeme_of_isPlain (h : isPlain token = true) : lexeme token = .plain := by
  rw [isPlain, Bool.or_eq_true, beq_iff_eq, bne_iff_ne] at h
  rcases h with rfl | h
  · rfl
  · exact lexeme_plain h

theorem usesFrom_marker (rest : List Text) :
    usesFrom options st (marker :: rest) =
      st.waiting.close.map (· ++ rest.map .positional) := by
  show usesFrom options st (['-', '-'] :: rest) = _
  simp only [usesFrom, lexeme]
  cases st.waiting.close <;> rfl

/-! ## Without declared options -/

/-- How an error names a flag that is not declared: one with two hyphens up to its equals sign, and
any other by a hyphen and the name that follows it. -/
def flagName (token : Text) : Text :=
  if marker <+: token then token.takeWhile (· != '=') else token.take 2

theorem cutAtEquals_fst (t : Text) : (cutAtEquals t).1 = t.takeWhile (· != '=') := by
  induction t with
  | nil => rfl
  | cons c t ih =>
    by_cases hc : c = '='
    · subst hc
      rfl
    · rw [cutAtEquals, ih, List.takeWhile_cons_of_pos (by simpa using hc)]
      exact hc

/-- A flag is refused where no options are declared. -/
theorem usesFrom_undeclared (h : isPlain token = false) (hmarker : token ≠ marker) :
    usesFrom [] st (token :: rest) = .error (.unrecognized (flagName token)) := by
  rcases exists_of_not_isPlain h hmarker with ⟨body, hbody, rfl⟩ | ⟨c, cs, hc, rfl⟩
  · have hname : flagName ('-' :: '-' :: body) = ("--" : Text) ++ (cutAtEquals body).1 := by
      rw [flagName, if_pos (by simp [marker]), cutAtEquals_fst]
      rfl
    rw [hname]
    simp only [usesFrom, lexeme_long hbody]
    rfl
  · have hname : flagName ('-' :: c :: cs) = ['-', c] := by
      rw [flagName, if_neg (by simp [marker, Ne.symm hc])]
      rfl
    rw [hname]
    simp only [usesFrom, lexeme_cluster hc]
    rfl

/-- Where no options are declared, the first flag before the marker decides. -/
theorem usesFrom_of_undeclared (given : List Char) (tokens : List Text) :
    usesFrom [] ⟨none, given⟩ tokens =
      match (beforeMarker tokens).find? (fun token => !isPlain token) with
      | none => .ok ((beforeMarker tokens ++ afterMarker tokens).map .positional)
      | some flag => .error (.unrecognized (flagName flag)) := by
  induction tokens with
  | nil => rfl
  | cons token tokens ih =>
    by_cases hmarker : token = marker
    · subst hmarker
      rw [usesFrom_marker, beforeMarker_marker, afterMarker_marker]
      rfl
    · rw [beforeMarker_cons hmarker, afterMarker_cons hmarker]
      cases hplain : isPlain token with
      | false => rw [usesFrom_undeclared hplain hmarker, List.find?_cons_of_pos (by simp [hplain])]
      | true =>
        have huses : plainUses ⟨none, given⟩ token = ([.positional token], ⟨none, given⟩) := rfl
        rw [usesFrom_plain (lexeme_of_isPlain hplain), huses, ih,
          List.find?_cons_of_neg (by simp [hplain])]
        cases (beforeMarker tokens).find? (fun token => !isPlain token) <;> rfl

theorem parse_none (tokens : List Text) :
    parse none tokens =
      match (beforeMarker tokens).find? (fun token => !isPlain token) with
      | none => .ok ⟨[], beforeMarker tokens ++ afterMarker tokens⟩
      | some flag => .error (.unrecognized (flagName flag)) := by
  show parseWith [] tokens = _
  rw [parseWith, uses, usesFrom_of_undeclared]
  cases (beforeMarker tokens).find? (fun token => !isPlain token) with
  | none =>
    have hargs := @positionals_uses [] (beforeMarker tokens ++ afterMarker tokens)
    rw [List.map_nil, List.nil_append] at hargs
    simp only [bind, Except.bind, collect, List.filterMap_nil, hargs]
    rfl
  | some flag => rfl

/-- Without declared options reading succeeds exactly if no token before the marker is a flag; then
no option is given and all tokens but the marker are positional arguments, in order. Otherwise the
error names the first flag. -/
theorem parse_undeclared (tokens : List Text) :
    ((∃ p, parse none tokens = .ok p) ↔ ∀ token ∈ beforeMarker tokens, isPlain token = true) ∧
    (∀ p, parse none tokens = .ok p →
      p.args = beforeMarker tokens ++ afterMarker tokens ∧ ∀ c, p.has c = false) ∧
    ∀ earlier flag later, beforeMarker tokens = earlier ++ flag :: later →
      (∀ token ∈ earlier, isPlain token = true) → isPlain flag = false →
      parse none tokens = .error (.unrecognized (flagName flag)) := by
  rw [parse_none]
  refine ⟨?_, ?_, fun earlier flag later hsplit hearlier hflag => ?_⟩
  · cases hfind : (beforeMarker tokens).find? fun token => !isPlain token with
    | none => simpa using hfind
    | some flag =>
      have hmem := List.mem_of_find?_eq_some hfind
      have hflag := List.find?_some hfind
      simp only [reduceCtorEq, exists_false, false_iff]
      intro hall
      rw [hall flag hmem] at hflag
      cases hflag
  · intro p hp
    split at hp
    · cases hp
      exact ⟨rfl, fun c => rfl⟩
    · cases hp
  · have hnone : earlier.find? (fun token => !isPlain token) = none := by simpa using hearlier
    rw [hsplit, List.find?_append, hnone, Option.none_or, List.find?_cons_of_pos (by simp [hflag])]

end ClusterConsole.Options
