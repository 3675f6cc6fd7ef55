/-
Blank characters are those of Unicode's `White_Space` property. They separate words and tokens and
are trimmed from the ends of a line. `trim_trim` says that trimming is done once and for all.
-/
import ClusterConsole.Text

namespace ClusterConsole.Text

/-! ## The property -/

/-- The ranges of code points with the property `White_Space`. -/
def blankRanges : List (Nat × Nat) :=
  [(0x09, 0x0D), (0x20, 0x20), (0x85, 0x85), (0xA0, 0xA0), (0x1680, 0x1680), (0x2000, 0x200A),
    (0x2028, 0x2029), (0x202F, 0x202F), (0x205F, 0x205F), (0x3000, 0x3000)]

/-- Whether `c` is white space. -/
def isBlank (c : Char) : Bool :=
  blankRanges.any fun r => r.1 ≤ c.toNat && c.toNat ≤ r.2

/-! ## Trimming -/

/-- The text without the blanks it begins with. -/
def trimStart (t : Text) : Text := t.dropWhile isBlank

/-- The text without the blanks it ends with. -/
def trimEnd (t : Text) : Text := (t.reverse.dropWhile isBlank).reverse

/-- The text without the blanks at either end. -/
def trim (t : Text) : Text := trimEnd (trimStart t)

theorem dropWhile_idem (p : Char → Bool) (t : Text) :
    (t.dropWhile p).dropWhile p = t.dropWhile p := by
  induction t with
  | nil => rfl
  | cons c cs ih =>
    by_cases h : p c = true
    · simpa [List.dropWhile_cons, h] using ih
    · simp [h]

theorem trimEnd_trimEnd (t : Text) : trimEnd (trimEnd t) = trimEnd t := by
  simp [trimEnd, dropWhile_idem]

/-- A text that does not begin with a blank does not begin with one after trimming its end. -/
theorem trimStart_trimEnd {t : Text} (h : trimStart t = t) : trimStart (trimEnd t) = trimEnd t := by
  cases t with
  | nil => rfl
  | cons c cs =>
    have hc : isBlank c = false := by
      cases hb : isBlank c with
      | false => rfl
      | true =>
        have hlen := congrArg List.length h
        have hle : (cs.dropWhile isBlank).length ≤ cs.length :=
          (List.dropWhile_suffix isBlank).length_le
        simp only [trimStart, List.dropWhile_cons, hb, if_true, List.length_cons] at hlen
        omega
    have hsplit : trimEnd (c :: cs) = c :: trimEnd cs := by
      unfold trimEnd
      rw [List.reverse_cons, List.dropWhile_append]
      split
      · rename_i he
        simp_all
      · simp
    rw [hsplit, trimStart, List.dropWhile_cons, hc]
    simp

/-- Trimming a trimmed text changes nothing. -/
theorem trim_trim (t : Text) : trim (trim t) = trim t := by
  have h : trimStart (trimEnd (trimStart t)) = trimEnd (trimStart t) :=
    trimStart_trimEnd (dropWhile_idem isBlank t)
  unfold trim
  rw [h, trimEnd_trimEnd]

/-! ## Words -/

/-- A word is kept unless it is empty. -/
def consWord (w : Text) (ws : List Text) : List Text := if w = [] then ws else w :: ws

/-- The characters up to the first blank, and the words after it. -/
def wordsFrom : Text → Text × List Text
  | [] => ([], [])
  | c :: cs =>
    let (w, ws) := wordsFrom cs
    if isBlank c then ([], consWord w ws) else (c :: w, ws)

/-- The maximal runs of characters that are not blank, from left to right. -/
def words (t : Text) : List Text :=
  let (w, ws) := wordsFrom t
  consWord w ws

end ClusterConsole.Text
