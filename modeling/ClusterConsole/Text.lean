/-
Text is the list of its Unicode scalar values. Here are the few operations on it that every part
of the console shares: numerals, padding to a column, splitting at a separator, and cutting a text
into lines. `splitOn_ne_nil` says that splitting always leaves at least one piece.
-/
namespace ClusterConsole

/-- Text, as its Unicode scalar values in order. -/
abbrev Text := List Char

instance : Coe String Text := ⟨String.toList⟩

namespace Text

/-- The decimal numeral of `n`, without leading zeros. -/
def ofNat (n : Nat) : Text := Nat.toDigits 10 n

/-- The texts one after another with `separator` between neighbours. -/
def join (separator : Text) (texts : List Text) : Text := separator.intercalate texts

/-- Spaces are appended until the text has at least `width` characters. -/
def padRight (width : Nat) (t : Text) : Text := t ++ List.replicate (width - t.length) ' '

/-- Spaces are put in front until the text has at least `width` characters. -/
def padLeft (width : Nat) (t : Text) : Text := List.replicate (width - t.length) ' ' ++ t

/-- ASCII capitals become small letters; every other character stays. -/
def lowerAscii (t : Text) : Text := t.map Char.toLower

/-- The value of a hexadecimal digit of either case. -/
def hexDigit? (c : Char) : Option Nat :=
  if '0' ≤ c ∧ c ≤ '9' then some (c.toNat - '0'.toNat)
  else if 'a' ≤ c ∧ c ≤ 'f' then some (c.toNat - 'a'.toNat + 10)
  else if 'A' ≤ c ∧ c ≤ 'F' then some (c.toNat - 'A'.toNat + 10)
  else none

/-- The pieces between the occurrences of `separator`; there is one more piece than separators. -/
def splitOn (separator : Char) : Text → List Text
  | [] => [[]]
  | c :: cs =>
    if c = separator then [] :: splitOn separator cs
    else match splitOn separator cs with
      | [] => [[c]]
      | p :: ps => (c :: p) :: ps

theorem splitOn_ne_nil (separator : Char) (t : Text) : splitOn separator t ≠ [] := by
  cases t with
  | nil => simp [splitOn]
  | cons c cs =>
    unfold splitOn
    split
    · simp
    · split <;> simp

/-- A carriage return at the very end is dropped. -/
def dropFinalReturn (t : Text) : Text :=
  match t.reverse with
  | '\r' :: r => r.reverse
  | _ => t

/-- The lines of a text: the pieces that end at a newline, each without a final carriage return, and
what follows the last newline if anything does. -/
def lines (t : Text) : List Text :=
  let pieces := splitOn '\n' t
  let rest := pieces.getLast?.getD []
  pieces.dropLast.map dropFinalReturn ++ (if rest = [] then [] else [rest])

end Text

end ClusterConsole
