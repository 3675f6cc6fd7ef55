/-
What a line finally amounts to, without a bound on how often it is sent back: `Settles` follows a
line from one request for help to the next until one of them is dispatched. Every line settles
(`settles_settle`), and in one way only. The measure is the number of segments that a line spells:
a request for help spells one more than the line it is about, and a line with more segments than
the longest registered path has no matches. All that one look-up can come to is said in
`Catalog.attempted`.
-/
import ClusterConsole.Proofs.Token.Blank
import ClusterConsole.Resolution

namespace ClusterConsole

/-- The line, perhaps after being sent back as a request for help any number of times, amounts to
the dispatch. -/
inductive Settles (c : Catalog) : Line → Dispatch → Prop
  | now {line : Line} {d : Dispatch} (h : c.attempt line = .dispatch d) : Settles c line d
  | again {line next : Line} {d : Dispatch} (h : c.attempt line = .resubmit next)
      (hnext : Settles c next d) : Settles c line d

/-- A line settles in one way. -/
theorem Settles.unique {c : Catalog} {line : Line} {d d' : Dispatch} (h : Settles c line d)
    (h' : Settles c line d') : d = d' := by
  induction h with
  | now h =>
    cases h' with
    | now h' => rw [h] at h'; cases h'; rfl
    | again h' _ => rw [h] at h'; cases h'
  | again h _ ih =>
    cases h' with
    | now h' => rw [h] at h'; cases h'
    | again h' hnext => rw [h] at h'; cases h'; exact ih hnext

/-! ## The path that a line spells -/

/-- The line can be cut into tokens, and the leading ones spell the path. -/
def Line.Spells (line : Line) (p : CommandPath) : Prop :=
  ∃ tokens, Token.tokenize line.text = .ok tokens ∧ CommandPath.ofTokens tokens = .ok p

namespace CommandPath

theorem segments_of_ofSegments {segments : List Text} {p : CommandPath}
    (h : ofSegments segments = .ok p) : p.segments = segments := by
  unfold ofSegments at h
  split at h
  · cases h
  · split at h
    · cases h
    · cases h
      rfl

theorem ofSegments_segments (p : CommandPath) : ofSegments p.segments = .ok p := by
  unfold ofSegments
  rw [dif_neg p.ne_nil]
  split
  · rename_i i hi
    obtain ⟨h, hs⟩ := List.findIdx?_eq_some_iff_getElem.1 hi
    exact absurd (List.isEmpty_iff.1 hs.1) (p.filled _ (List.getElem_mem h))
  · rfl

theorem leading_eq_self {tokens : List Text} (h : ∀ s ∈ tokens, beginsOptions s = false) :
    leading tokens = tokens :=
  List.takeWhile_eq_self_iff.2 fun s hs => by simp [h s hs]

/-- A word in front of a path that is no option is one more segment. -/
theorem ofTokens_cons {w : Text} {tokens : List Text} {p : CommandPath} (hw : w ≠ [])
    (ho : beginsOptions w = false) (h : ofTokens tokens = .ok p) :
    ofTokens (w :: tokens) = .ok ⟨w :: p.segments, by simp, by
      intro s hs
      rcases List.mem_cons.1 hs with rfl | hs
      · exact hw
      · exact p.filled s hs⟩ := by
  have hl : leading (w :: tokens) = w :: p.segments := by
    rw [segments_of_ofSegments h, leading, List.takeWhile_cons, ho]
    rfl
  rw [ofTokens, hl, ← ofSegments_segments]

theorem length_le_of_abbreviates {query segments : List Text}
    (h : abbreviates query segments = true) : query.length ≤ segments.length := by
  fun_induction abbreviates query segments with
  | case1 => simp
  | case2 => cases h
  | case3 q qs s ss ih =>
    rw [Bool.and_eq_true] at h
    simpa using ih h.2

theorem abbreviates_refl (segments : List Text) : abbreviates segments segments = true := by
  induction segments with
  | nil => rfl
  | cons s ss ih =>
    rw [abbreviates, Bool.and_eq_true, List.isPrefixOf_iff_prefix]
    exact ⟨List.prefix_refl s, ih⟩

theorem abbreviates_trans {as bs cs : List Text} (h : abbreviates as bs = true)
    (h' : abbreviates bs cs = true) : abbreviates as cs = true := by
  fun_induction abbreviates as bs generalizing cs with
  | case1 => rfl
  | case2 => cases h
  | case3 a as b bs ih =>
    cases cs with
    | nil => cases h'
    | cons c cs =>
      rw [abbreviates, Bool.and_eq_true, List.isPrefixOf_iff_prefix] at h' ⊢
      rw [Bool.and_eq_true, List.isPrefixOf_iff_prefix] at h
      exact ⟨h.1.trans h'.1, ih h.2 h'.2⟩

end CommandPath

theorem Line.Spells.unique {line : Line} {p p' : CommandPath} (h : line.Spells p)
    (h' : line.Spells p') : p = p' := by
  obtain ⟨tokens, ht, hp⟩ := h
  obtain ⟨tokens', ht', hp'⟩ := h'
  rw [ht] at ht'
  cases ht'
  rw [hp] at hp'
  cases hp'
  rfl

theorem Line.text_ne_nil_of_spells {line : Line} {p : CommandPath} (h : line.Spells p) :
    line.text ≠ [] := by
  obtain ⟨tokens, ht, hp⟩ := h
  intro he
  rw [he] at ht
  cases ht
  cases hp

/-- The request for help about a line that is not empty puts one word in front of the line. -/
theorem Line.helpRequest_text_of_ne_nil {line : Line} (hne : line.text ≠ []) :
    line.helpRequest.text = helpWord ++ line.text := by
  have hends := (Text.trim_eq_self_iff.1 line.trimmed).2
  refine Text.trim_eq_self_iff.2 ⟨?_, ?_⟩
  · simp [helpWord]
    decide
  · intro c hc
    rw [List.getLast?_append_of_ne_nil _ hne] at hc
    exact hends c hc

theorem Line.helpRequest_text {line : Line} {p : CommandPath} (h : line.Spells p) :
    line.helpRequest.text = helpWord ++ line.text :=
  helpRequest_text_of_ne_nil (text_ne_nil_of_spells h)

/-- What a request for help puts in front of the tokens of a line. -/
def helpToken : Text := "help"

/-- The request for help about a line that is not empty has one more token. -/
theorem Line.tokenize_helpRequest_of_ne_nil {line : Line} (hne : line.text ≠ [])
    {tokens : List Text} (ht : Token.tokenize line.text = .ok tokens) :
    Token.tokenize line.helpRequest.text = .ok (helpToken :: tokens) := by
  have hhelp : Token.tokenize helpToken = .ok [helpToken] := rfl
  have hfront : helpWord ++ line.text = helpToken ++ ' ' :: line.text := rfl
  rw [helpRequest_text_of_ne_nil hne, hfront, Token.tokenize_append hhelp (by decide), ht]
  rfl

theorem Line.tokenize_helpRequest {line : Line} {p : CommandPath} (h : line.Spells p)
    {tokens : List Text} (ht : Token.tokenize line.text = .ok tokens) :
    Token.tokenize line.helpRequest.text = .ok (helpToken :: tokens) :=
  tokenize_helpRequest_of_ne_nil (text_ne_nil_of_spells h) ht

/-- The request for help spells the path with one more segment in front. -/
theorem Line.spells_helpRequest {line : Line} {p : CommandPath} (h : line.Spells p) :
    ∃ p', line.helpRequest.Spells p' ∧ p'.length = p.length + 1 := by
  obtain ⟨tokens, ht, hp⟩ := h
  have ho : CommandPath.beginsOptions helpToken = false := by decide
  exact ⟨_, ⟨helpToken :: tokens, tokenize_helpRequest ⟨tokens, ht, hp⟩ ht,
    CommandPath.ofTokens_cons (by decide) ho hp⟩, rfl⟩

/-! ## Lines that are sent back -/

namespace Catalog

theorem length_le_longest {c : Catalog} {r : Registration} (h : r ∈ c.entries) :
    r.path.length ≤ c.longest := by
  have key : ∀ (ns : List Nat) (start n : Nat), n ∈ ns ∨ n ≤ start → n ≤ ns.foldl max start := by
    intro ns
    induction ns with
    | nil => simp
    | cons m ns ih =>
      intro start n hn
      refine ih (max start m) n ?_
      rw [List.mem_cons] at hn
      rcases hn with (rfl | hn) | hn
      · exact Or.inr (by omega)
      · exact Or.inl hn
      · exact Or.inr (by omega)
  exact key _ 0 _ (Or.inl (List.mem_map.2 ⟨r, h, rfl⟩))

theorem longest_le {c : Catalog} {m : Nat} (h : ∀ r ∈ c.entries, r.path.length ≤ m) :
    c.longest ≤ m := by
  refine List.foldlRecOn (motive := fun n => n ≤ m) _ _ (Nat.zero_le m) fun n hn k hk => ?_
  obtain ⟨r, hr, rfl⟩ := List.mem_map.1 hk
  exact max_le hn (h r hr)

/-- A path that selects an entry has no more segments than the longest path. -/
theorem length_le_longest_of_select {c : Catalog} {p : CommandPath} {r : Registration}
    (h : r ∈ (c.select [p]).entries) : p.length ≤ c.longest := by
  have hsel : r.path.selectedBy p = true := by simpa [select] using (List.mem_filter.1 h).2
  have hle := length_le_longest (mem_of_mem_select h)
  have := CommandPath.length_le_of_abbreviates hsel
  unfold CommandPath.length at hle ⊢
  omega

/-- Where an abbreviation selects one entry only, so does every path between the two. -/
theorem select_of_between {c : Catalog} {q q' : CommandPath} {r : Registration}
    (h : (c.select [q]).entries = [r]) (hq : q'.selectedBy q = true)
    (hr : r.path.selectedBy q' = true) : (c.select [q']).entries = [r] := by
  -- what `q'` selects `q` selects as well, so the first filter takes nothing away
  have hfilter : (c.select [q']).entries =
      (c.select [q]).entries.filter fun e => e.path.selectedBy q' := by
    simp only [select, List.filter_filter, List.any_cons, List.any_nil, Bool.or_false]
    refine List.filter_congr fun e _ => ?_
    by_cases he : e.path.selectedBy q' = true
    · have := CommandPath.abbreviates_trans hq he
      rw [he, Bool.true_and]
      exact this.symm
    · rw [Bool.not_eq_true] at he
      rw [he, Bool.false_and]
  rw [hfilter, h]
  exact List.filter_cons_of_pos hr

/-- Where an abbreviation selects one entry only, its path in full selects that entry only. -/
theorem select_path_of_select {c : Catalog} {q : CommandPath} {r : Registration}
    (h : (c.select [q]).entries = [r]) : (c.select [r.path]).entries = [r] := by
  have hq : r.path.selectedBy q = true := by
    have hmem : r ∈ (c.select [q]).entries := by simp [h]
    simpa [select] using (List.mem_filter.1 hmem).2
  exact select_of_between h hq (CommandPath.abbreviates_refl _)

/-- A line that spells a path is looked up by it. -/
theorem attempt_of_spells {c : Catalog} {line : Line} {tokens : List Text} {p : CommandPath}
    (ht : Token.tokenize line.text = .ok tokens) (hp : CommandPath.ofTokens tokens = .ok p) :
    c.attempt line = match (c.select [p]).entries with
      | [] => .dispatch (.inform (.unrecognized ⟨line, tokens⟩))
      | [r] => .dispatch (Dispatch.bind r ⟨line, tokens⟩)
      | _ :: _ :: _ => .resubmit line.helpRequest := by
  have htokenize : line.tokenize = .ok ⟨line, tokens⟩ := by rw [Line.tokenize, ht]; rfl
  have hlookup : TokenizedLine.lookup ⟨line, tokens⟩ = .ok ⟨[p], by simp, some ⟨line, tokens⟩⟩ := by
    rw [TokenizedLine.lookup, Lookup.ofLine, hp]
    rfl
  cases hentries : (c.select [p]).entries with
  | nil => simp [attempt, htokenize, hlookup, Response.resolve, hentries]
  | cons r rs => cases rs <;> simp [attempt, htokenize, hlookup, Response.resolve, hentries]

/-- What becomes of a line when it is looked up once, and when. -/
inductive Attempted (c : Catalog) (line : Line) : Resolution → Prop
  | lexical {e : Token.LexicalError} (h : Token.tokenize line.text = .error e) :
      Attempted c line (.dispatch (.inform (.lexical line e)))
  | noPath {tokens : List Text} {e : PathError} (ht : Token.tokenize line.text = .ok tokens)
      (hp : CommandPath.ofTokens tokens = .error e) :
      Attempted c line (.dispatch (.inform (.unrecognized ⟨line, tokens⟩)))
  | noMatch {tokens : List Text} {p : CommandPath} (ht : Token.tokenize line.text = .ok tokens)
      (hnone : (c.select [p]).entries = []) :
      Attempted c line (.dispatch (.inform (.unrecognized ⟨line, tokens⟩)))
  | options {tokens : List Text} {p : CommandPath} {r : Registration} {e : OptionError}
      (ht : Token.tokenize line.text = .ok tokens) (hone : (c.select [p]).entries = [r])
      (he : Command.parseOptions ⟨p, r, ⟨line, tokens⟩⟩ = .error e) :
      Attempted c line (.dispatch (.inform (.invalid line e.message none)))
  | command {tokens : List Text} {p : CommandPath} {r : Registration} {o : ParsedOptions}
      (ht : Token.tokenize line.text = .ok tokens) (hone : (c.select [p]).entries = [r])
      (ho : Command.parseOptions ⟨p, r, ⟨line, tokens⟩⟩ = .ok o) :
      Attempted c line (.dispatch (.execute ⟨p, r, ⟨line, tokens⟩⟩))
  | ambiguous {p : CommandPath} {r r' : Registration} {rs : List Registration}
      (hp : line.Spells p) (hmany : (c.select [p]).entries = r :: r' :: rs) :
      Attempted c line (.resubmit line.helpRequest)

theorem attempted (c : Catalog) (line : Line) : Attempted c line (c.attempt line) := by
  cases ht : Token.tokenize line.text with
  | error e =>
    have htokenize : line.tokenize = .error e := by rw [Line.tokenize, ht]; rfl
    simp only [attempt, htokenize]
    exact .lexical ht
  | ok tokens =>
    cases hp : CommandPath.ofTokens tokens with
    | error e =>
      have htokenize : line.tokenize = .ok ⟨line, tokens⟩ := by rw [Line.tokenize, ht]; rfl
      have hlookup : TokenizedLine.lookup ⟨line, tokens⟩ =
          .error (.unrecognized ⟨line, tokens⟩) := by
        rw [TokenizedLine.lookup, Lookup.ofLine, hp]
        rfl
      simp only [attempt, htokenize, hlookup]
      exact .noPath ht hp
    | ok p =>
      rw [attempt_of_spells ht hp]
      split
      · exact .noMatch ht (by assumption)
      · rename_i r hone
        -- the path has been found before, so it cannot fail now
        have hcommand : Command.ofLine r ⟨line, tokens⟩ = .ok ⟨p, r, ⟨line, tokens⟩⟩ := by
          rw [Command.ofLine, hp]
          rfl
        simp only [Dispatch.bind, hcommand]
        split
        · rename_i e he
          exact .options ht hone he
        · rename_i o ho
          exact .command ht hone ho
      · rename_i r r' rs hmany
        exact .ambiguous ⟨tokens, ht, hp⟩ hmany

/-- A line is sent back only as a request for help about it, and only when it spells a path that is
not longer than the longest one. -/
theorem attempt_resubmit {c : Catalog} {line next : Line} (h : c.attempt line = .resubmit next) :
    next = line.helpRequest ∧ ∃ p, line.Spells p ∧ p.length ≤ c.longest := by
  have hattempted := attempted c line
  rw [h] at hattempted
  cases hattempted with
  | @ambiguous p r _ _ hp hmany =>
    exact ⟨rfl, p, hp, length_le_longest_of_select (r := r) (by rw [hmany]; simp)⟩

/-- A dispatched line is either reported, and not by output, or it has become a command of the only
entry that a path selects. -/
theorem attempt_dispatch {c : Catalog} {line : Line} {d : Dispatch}
    (h : c.attempt line = .dispatch d) :
    (∃ e, d = .inform e ∧ ∀ o, e ≠ .output o) ∨
      ∃ command q, d = .execute command ∧ (c.select [q]).entries = [command.registration] := by
  have hattempted := attempted c line
  rw [h] at hattempted
  cases hattempted with
  | lexical | noPath | noMatch | options => exact Or.inl ⟨_, rfl, nofun⟩
  | command _ hone _ => exact Or.inr ⟨_, _, rfl, hone⟩

/-- Following a line far enough leads to a dispatch: each step back and forth adds a segment, and
`n` steps are enough when the last one has more segments than the longest path. -/
theorem exists_dispatch_of_follow {c : Catalog} (n : Nat) (line : Line)
    (h : ∀ p, line.Spells p → c.longest < p.length + n) :
    ∃ d, (c.follow n line).2 = .dispatch d ∧ Settles c line d := by
  induction n generalizing line with
  | zero =>
    unfold follow
    cases hr : c.attempt line with
    | dispatch d => exact ⟨d, rfl, .now hr⟩
    | resubmit next =>
      obtain ⟨-, p, hp, hle⟩ := attempt_resubmit hr
      have := h p hp
      omega
  | succ n ih =>
    unfold follow
    cases hr : c.attempt line with
    | dispatch d => exact ⟨d, rfl, .now hr⟩
    | resubmit next =>
      obtain ⟨rfl, p, hp, -⟩ := attempt_resubmit hr
      -- the request for help spells one segment more, so one step fewer is enough for it
      have hlonger : ∀ p', line.helpRequest.Spells p' → c.longest < p'.length + n := by
        intro p' hp'
        obtain ⟨p'', hp'', hlen⟩ := Line.spells_helpRequest hp
        obtain rfl := hp'.unique hp''
        have := h p hp
        omega
      obtain ⟨d, hd, hs⟩ := ih _ hlonger
      exact ⟨d, hd, .again hr hs⟩

/-- Every line settles, and `settle` says on what: no line goes back and forth for ever. -/
theorem settles_settle (c : Catalog) (line : Line) : Settles c line (c.settle line) := by
  -- a path has a segment, so as many steps as the longest path has segments are enough
  have h : ∀ p, line.Spells p → c.longest < p.length + c.longest := by
    intro p _
    have : p.length ≠ 0 := by
      rw [CommandPath.length, List.length_eq_zero_iff.ne]
      exact p.ne_nil
    omega
  obtain ⟨d, hd, hs⟩ := exists_dispatch_of_follow c.longest line h
  unfold settle
  rw [hd]
  exact hs

/-- What a line finally amounts to is a report, which is no output, or a command of the only entry
that a path selects. -/
theorem dispatch_of_settles {c : Catalog} {line : Line} {d : Dispatch} (h : Settles c line d) :
    (∃ e, d = .inform e ∧ ∀ o, e ≠ .output o) ∨
      ∃ command q, d = .execute command ∧ (c.select [q]).entries = [command.registration] := by
  induction h with
  | now h => exact attempt_dispatch h
  | again _ _ ih => exact ih

theorem settles_iff {c : Catalog} {line : Line} {d : Dispatch} :
    Settles c line d ↔ c.settle line = d := by
  constructor
  · exact (settles_settle c line).unique
  · rintro rfl
    exact settles_settle c line

/-- A line whose path selects one entry, and whose options can be read, amounts to a command of that
entry. -/
theorem settle_of_select {c : Catalog} {line : Line} {tokens : List Text} {p : CommandPath}
    {r : Registration} {o : ParsedOptions} (ht : Token.tokenize line.text = .ok tokens)
    (hp : CommandPath.ofTokens tokens = .ok p) (hone : (c.select [p]).entries = [r])
    (ho : Command.parseOptions ⟨p, r, ⟨line, tokens⟩⟩ = .ok o) :
    c.settle line = .execute ⟨p, r, ⟨line, tokens⟩⟩ := by
  have hcommand : Command.ofLine r ⟨line, tokens⟩ = .ok ⟨p, r, ⟨line, tokens⟩⟩ := by
    rw [Command.ofLine, hp]
    rfl
  have hbind : Dispatch.bind r ⟨line, tokens⟩ = .execute ⟨p, r, ⟨line, tokens⟩⟩ := by
    simp only [Dispatch.bind, hcommand, ho]
  refine settles_iff.1 (.now ?_)
  simp only [attempt_of_spells ht hp, hone, hbind]

/-- The path of the entry that a line is dispatched to selects it only. -/
theorem select_of_settle {c : Catalog} {line : Line} {command : Command}
    (h : c.settle line = .execute command) :
    (c.select [command.registration.path]).entries = [command.registration] := by
  rcases dispatch_of_settles (settles_iff.2 h) with ⟨e, he, -⟩ | ⟨command', q, hc, honly⟩
  · cases he
  · cases hc
    exact select_path_of_select honly

end Catalog

end ClusterConsole
