/-
Quoted text, as messages show it: between quotes, with the usual backslash escapes, and with
`\u{…}` for every character that would not show as itself.
-/
import ClusterConsole.Text
import ClusterConsole.Text.Printable

namespace ClusterConsole.Text

/-- The hexadecimal numeral of `n`, in small letters and without leading zeros. -/
def hex (n : Nat) : Text := Nat.toDigits 16 n

/-- A character inside quotes: `quote`, the backslash and the characters with an escape of their
own get a backslash; what is not printable is given by its code point. -/
def quotedChar (quote c : Char) : Text :=
  if c = quote ∨ c = '\\' then ['\\', c]
  else if c = '\x00' then ['\\', '0']
  else if c = '\t' then ['\\', 't']
  else if c = '\r' then ['\\', 'r']
  else if c = '\n' then ['\\', 'n']
  else if isPrintable c then [c]
  else ['\\', 'u', '\x7b'] ++ hex c.toNat ++ ['\x7d']

/-- The text between double quotes. -/
def quoted (t : Text) : Text := '"' :: t.flatMap (quotedChar '"') ++ ['"']

/-- A character between single quotes. -/
def quotedSingle (c : Char) : Text := '\'' :: quotedChar '\'' c ++ ['\'']

end ClusterConsole.Text
