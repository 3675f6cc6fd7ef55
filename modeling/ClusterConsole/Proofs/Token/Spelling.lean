/-
Any list of tokens can be written as a line and is read back (`tokenize_written`). A token may be put
between quotes of either kind, or its bytes may be written one by one in hexadecimal digits; each
token may have a spelling of its own, and any blanks stand between two of them. A spelling is one
run of the grammar of lines, so what is written is derived from the runs and the blanks.

Tokens that are all put between single quotes, with one space between neighbours, make a line that is
trimmed already and no comment (`Line.asks_quoted`).
-/
import ClusterConsole.Line
import ClusterConsole.Proofs.Text.Blank
import ClusterConsole.Proofs.Token.Grammar

namespace ClusterConsole.Token

open Text

/-! ## Spellings -/

/-- A token between quotes, with a backslash in front of each of these quotes and each backslash of
it. A quote of the other kind stands for itself. -/
def quoteIn (q : Char) (token : Text) : Text :=
  q :: (token.flatMap (fun c => if c = q ∨ c = '\\' then ['\\', c] else [c]) ++ [q])

/-- Bytes that are written one by one, with two hexadecimal digits of either case each. -/
inductive SpellsBytes : Bytes → Text → Prop
  | nil : SpellsBytes [] []
  | cons {b : UInt8} {bs : Bytes} {high low : Char} {text : Text}
      (hhigh : hexDigits[b.toNat / 16]? = some high.toLower)
      (hlow : hexDigits[b.toNat % 16]? = some low.toLower) (h : SpellsBytes bs text) :
      SpellsBytes (b :: bs) ('\\' :: 'x' :: high :: low :: text)

/-- The ways to write a token. -/
inductive Spells : Text → Text → Prop
  | quoted {q : Char} (hq : q = '\'' ∨ q = '"') (token : Text) : Spells token (quoteIn q token)
  | bytes {token text : Text} (hne : token ≠ []) (h : SpellsBytes (Utf8.encode token) text) :
      Spells token text
  | quotedBytes {q : Char} {token text : Text} (hq : q = '\'' ∨ q = '"')
      (h : SpellsBytes (Utf8.encode token) text) : Spells token (q :: (text ++ [q]))

/-- The lines that tokens are written as: their spellings in order, with blanks between them. -/
inductive Written : List Text → Text → Prop
  | nil : Written [] []
  | single {token text : Text} (h : Spells token text) : Written [token] text
  | cons {token next text blanks rest : Text} {tokens : List Text} (h : Spells token text)
      (hne : blanks ≠ []) (hblank : ∀ c ∈ blanks, isBlank c = true)
      (hrest : Written (next :: tokens) rest) :
      Written (token :: next :: tokens) (text ++ (blanks ++ rest))

/-! ## A spelling is a run -/

section Runs

variable {q : Char} {token text : Text} {bs : Bytes} {n : Nat} {c : Char}

/-- What a character between quotes is written as, as an item. -/
def quotedItem (q c : Char) : Item := if c = q ∨ c = '\\' then .escaped c else .plain c

theorem textOf_quotedItem (q : Char) (token : Text) :
    textOf (token.map (quotedItem q)) =
      token.flatMap fun c => if c = q ∨ c = '\\' then ['\\', c] else [c] := by
  rw [textOf, List.flatMap_map]
  refine List.flatMap_congr fun c _ => ?_
  unfold quotedItem
  split_ifs <;> rfl

theorem bytesOf_quotedItem (q : Char) (token : Text) :
    bytesOf (token.map (quotedItem q)) = Utf8.encode token := by
  rw [bytesOf, List.flatMap_map]
  refine List.flatMap_congr fun c _ => ?_
  unfold quotedItem
  split_ifs <;> rfl

theorem fits_quotedItem (hq : q = '\'' ∨ q = '"') (c : Char) : (quotedItem q c).Fits (some q) := by
  unfold quotedItem
  split_ifs with hc
  · rcases hc with rfl | rfl
    · exact hq.elim Or.inl fun h => Or.inr (Or.inl h)
    · exact Or.inr (Or.inr (Or.inl rfl))
  · push Not at hc
    exact ⟨hc.2, hc.1⟩

theorem hexValue_of_getElem? (h : hexDigits[n]? = some c.toLower) :
    c.toLower ∈ hexDigits ∧ hexValue c = n := by
  have hnodup : hexDigits.Nodup := by decide
  obtain ⟨hn, hc⟩ := List.getElem?_eq_some_iff.1 h
  refine ⟨List.mem_of_getElem? h, ?_⟩
  rw [hexValue, ← hc]
  exact hnodup.idxOf_getElem n hn

theorem exists_items_of_bytes (h : SpellsBytes bs text) (q : Option Char) :
    ∃ items, textOf items = text ∧ bytesOf items = bs ∧ ∀ i ∈ items, i.Fits q := by
  induction h with
  | nil => exact ⟨[], rfl, rfl, by simp⟩
  | @cons b bs high low text hhigh hlow h ih =>
    obtain ⟨items, htext, hbytes, hfits⟩ := ih
    obtain ⟨hhighMem, hhighValue⟩ := hexValue_of_getElem? hhigh
    obtain ⟨hlowMem, hlowValue⟩ := hexValue_of_getElem? hlow
    have hbyte : (Item.byte high low).bytes = [b] := by
      have hsplit : b.toNat / 16 * 16 + b.toNat % 16 = b.toNat := Nat.div_add_mod' b.toNat 16
      rw [Item.bytes, hhighValue, hlowValue, hsplit, UInt8.ofNat_toNat]
    refine ⟨.byte high low :: items, ?_, ?_, ?_⟩
    · rw [textOf, List.flatMap_cons, ← textOf, htext]
      rfl
    · rw [bytesOf, List.flatMap_cons, ← bytesOf, hbytes, hbyte]
      rfl
    · exact List.forall_mem_cons.2 ⟨⟨hhighMem, hlowMem⟩, hfits⟩

/-- Items that mean the bytes of a token are a run that means the token. -/
theorem decodeLossy_of_bytesOf {items : List Item} (h : bytesOf items = Utf8.encode token) :
    Utf8.decodeLossy (bytesOf items) = token := by
  rw [h, Utf8.decodeLossy_encode]

/-- A spelling is one run of the grammar, which means the token. -/
theorem exists_run (h : Spells token text) :
    ∃ p : Piece, p.Valid ∧ p.text = text ∧ p.token? = some token := by
  cases h with
  | @quoted q hq token =>
    refine ⟨.quoted q (token.map (quotedItem q)), ⟨hq, ?_⟩, ?_, ?_⟩
    · intro i hi
      obtain ⟨c, -, rfl⟩ := List.mem_map.1 hi
      exact fits_quotedItem hq c
    · rw [Piece.text, textOf_quotedItem]
      rfl
    · exact congrArg some (decodeLossy_of_bytesOf (bytesOf_quotedItem q token))
  | bytes hne h =>
    obtain ⟨items, htext, hbytes, hfits⟩ := exists_items_of_bytes h none
    refine ⟨.bare items, ⟨?_, hfits⟩, htext, congrArg some (decodeLossy_of_bytesOf hbytes)⟩
    rintro rfl
    exact hne (Utf8.encode_eq_nil_iff.1 hbytes.symm)
  | @quotedBytes q token text hq h =>
    obtain ⟨items, htext, hbytes, hfits⟩ := exists_items_of_bytes h (some q)
    exact ⟨.quoted q items, ⟨hq, hfits⟩, by rw [Piece.text, htext],
      congrArg some (decodeLossy_of_bytesOf hbytes)⟩

end Runs

/-! ## A line of spellings -/

theorem Derives.blanks {pieces : List Piece} {t blanks : Text} (h : Derives pieces t)
    (hblank : ∀ c ∈ blanks, isBlank c = true) :
    Derives (blanks.map .blank ++ pieces) (blanks ++ t) := by
  induction blanks with
  | nil => exact h
  | cons c blanks ih =>
    obtain ⟨hc, hblanks⟩ := List.forall_mem_cons.1 hblank
    exact (ih hblanks).cons hc (by simp [Piece.isBare])

theorem tokensOf_blanks (blanks : Text) (pieces : List Piece) :
    tokensOf (blanks.map .blank ++ pieces) = tokensOf pieces := by
  induction blanks with
  | nil => rfl
  | cons c blanks ih => exact ih

/-- By induction on the tokens: the blanks behind a bare run keep it from bordering on another. -/
theorem exists_derivation {tokens : List Text} {text : Text} (h : Written tokens text) :
    ∃ pieces, Derives pieces text ∧ tokensOf pieces = tokens := by
  induction h with
  | nil => exact ⟨[], derives_nil, rfl⟩
  | single h =>
    obtain ⟨p, hvalid, rfl, htoken⟩ := exists_run h
    refine ⟨[p], ?_, by simp [tokensOf, htoken]⟩
    simpa using derives_nil.cons hvalid (by simp)
  | @cons token next text blanks rest tokens h hne hblank hrest ih =>
    obtain ⟨p, hvalid, rfl, htoken⟩ := exists_run h
    obtain ⟨pieces, hderives, htokens⟩ := ih
    obtain ⟨c, blanks, rfl⟩ := List.exists_cons_of_ne_nil hne
    have hborder : ∀ p' ∈ (((c :: blanks).map Piece.blank) ++ pieces).head?,
        p'.isBare = false := by
      rintro p' ⟨⟩
      rfl
    refine ⟨p :: ((c :: blanks).map .blank ++ pieces),
      (hderives.blanks hblank).cons hvalid fun _ => hborder, ?_⟩
    have hrest : tokensOf ((c :: blanks).map .blank ++ pieces) = next :: tokens := by
      rw [tokensOf_blanks, htokens]
    rw [tokensOf, List.filterMap_cons_some htoken, ← tokensOf, hrest]

/-- What tokens are written as is cut into these tokens again. -/
theorem tokenize_written {tokens : List Text} {text : Text} (h : Written tokens text) :
    tokenize text = .ok tokens := by
  obtain ⟨pieces, hderives, htokens⟩ := exists_derivation h
  rw [tokenize_of_derives hderives, htokens]

/-- A token with both quotes and a backslash, an empty one, one of two bytes written apart with
digits of both cases, and one of such bytes between quotes. -/
theorem tokenize_written_mixed :
    Written ["'\"\\", [], "é", "é"]
        "\"'\\\"\\\\\" \t''\u3000\\xc3\\xA9 '\\xC3\\xa9'" ∧
      tokenize "\"'\\\"\\\\\" \t''\u3000\\xc3\\xA9 '\\xC3\\xa9'" =
        .ok ["'\"\\", [], "é", "é"] := by
  have hquoted : Spells "'\"\\" _ := .quoted (Or.inr rfl) _
  have hempty : Spells [] _ := .quoted (Or.inl rfl) _
  have hbytes : SpellsBytes (Utf8.encode "é") "\\xc3\\xA9" :=
    .cons (by decide) (by decide) (.cons (by decide) (by decide) .nil)
  have hbytes' : SpellsBytes (Utf8.encode "é") "\\xC3\\xa9" :=
    .cons (by decide) (by decide) (.cons (by decide) (by decide) .nil)
  have hwritten : Written ["'\"\\", [], "é", "é"]
      "\"'\\\"\\\\\" \t''\u3000\\xc3\\xA9 '\\xC3\\xa9'" :=
    @Written.cons _ _ _ " \t" _ _ hquoted (by decide) (List.all_eq_true.1 rfl) <|
      @Written.cons _ _ _ "\u3000" _ _ hempty (by decide) (List.all_eq_true.1 rfl) <|
      @Written.cons _ _ _ " " _ _ (.bytes (by decide) hbytes) (by decide)
        (List.all_eq_true.1 rfl) <|
      .single (.quotedBytes (Or.inl rfl) hbytes')
  exact ⟨hwritten, tokenize_written hwritten⟩

/-! ## Quoting -/

/-- A character as it is written between single quotes. -/
def escapeChar (c : Char) : Text := if c = '\'' ∨ c = '\\' then ['\\', c] else [c]

/-- The characters of a token as they are written between single quotes. -/
def escape (t : Text) : Text := t.flatMap escapeChar

/-- A token in single quotes, a backslash in front of each quote and each backslash of it. -/
def quote (t : Text) : Text := '\'' :: (escape t ++ ['\''])

theorem quote_eq (t : Text) : quote t = quoteIn '\'' t := rfl

theorem written_quoted (tokens : List Text) : Written tokens (join " " (tokens.map quote)) := by
  have hquote : ∀ token, Spells token (quote token) := fun token => by
    rw [quote_eq]
    exact .quoted (Or.inl rfl) token
  induction tokens with
  | nil => exact .nil
  | cons token tokens ih =>
    -- only between two tokens there is a blank
    cases tokens with
    | nil => simpa [join] using Written.single (hquote token)
    | cons next tokens =>
      have hcons := @Written.cons _ _ _ " " _ _ (hquote token) (by decide)
        (List.all_eq_true.1 rfl) ih
      rw [List.map_cons, List.map_cons, join, List.intercalate_cons_cons]
      simpa [join] using hcons

/-- Quoted tokens with a space between neighbours are read back as they were. -/
theorem tokenize_quoted (tokens : List Text) :
    tokenize (join " " (tokens.map quote)) = .ok tokens := by
  obtain ⟨pieces, hderives, htokens⟩ := exists_derivation (written_quoted tokens)
  rw [tokenize_of_derives hderives, htokens]

/-- Quoted tokens with a space between neighbours begin and end with a quote. -/
theorem exists_quoted {tokens : List Text} (hne : tokens ≠ []) :
    ∃ body, join " " (tokens.map quote) = '\'' :: (body ++ ['\'']) := by
  induction tokens with
  | nil => exact absurd rfl hne
  | cons u tokens ih =>
    cases tokens with
    | nil => exact ⟨escape u, by simp [join, quote]⟩
    | cons v tokens =>
      obtain ⟨body, hbody⟩ := ih (by simp)
      refine ⟨escape u ++ '\'' :: ' ' :: '\'' :: body, ?_⟩
      rw [List.map_cons, List.map_cons, join, List.intercalate_cons_cons, ← join, ← List.map_cons,
        hbody]
      simp [quote]

/-- Quoted tokens make a line that is already trimmed. -/
theorem trim_quoted {tokens : List Text} (hne : tokens ≠ []) :
    (join " " (tokens.map quote)).trim = join " " (tokens.map quote) := by
  obtain ⟨body, hbody⟩ := exists_quoted hne
  have hquote : isBlank '\'' = false := by decide
  -- the line begins and ends with a quote, which is no blank
  rw [hbody, trim_eq_self_iff]
  constructor
  · rintro c ⟨⟩
    exact hquote
  · intro c hc
    rw [← List.cons_append, List.getLast?_append] at hc
    cases hc
    exact hquote

end ClusterConsole.Token

namespace ClusterConsole.Line

variable {tokens : List Text}

/-- The line of tokens that are each put in quotes. -/
def ofTokens (tokens : List Text) : Line := ofRaw (Text.join " " (tokens.map Token.quote))

theorem text_quoted (hne : tokens ≠ []) :
    (ofTokens tokens).text = Text.join " " (tokens.map Token.quote) :=
  Token.trim_quoted hne

theorem asks_quoted (hne : tokens ≠ []) : (ofTokens tokens).asks = true := by
  obtain ⟨body, hbody⟩ := Token.exists_quoted hne
  unfold asks isEmpty isComment
  rw [text_quoted hne, hbody]
  rfl

theorem tokenize_quoted (hne : tokens ≠ []) :
    Token.tokenize (ofTokens tokens).text = .ok tokens := by
  rw [text_quoted hne, Token.tokenize_quoted]

end ClusterConsole.Line
