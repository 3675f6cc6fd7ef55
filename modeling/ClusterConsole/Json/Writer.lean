/-
Writing JSON without blanks. Texts escape quotes, backslashes and control characters only; floating
point numbers have the fewest digits that read back.
-/
import ClusterConsole.Binary64.Shortest
import ClusterConsole.Json
import ClusterConsole.Text.Utf8

namespace ClusterConsole.Json

/-! ## Numbers -/

/-- How floating-point numbers are written: positionally, with at least one digit after the point,
while the leading digit stands between `least` and `greatest`; otherwise with a signed exponent of
at least `exponentDigits` digits. -/
structure FloatFormat where
  least : Int
  greatest : Int
  exponentDigits : Nat

/-- Numbers from 0.00001 to below 10 ^ 16 are written positionally. -/
def floatFormat : FloatFormat := ⟨-5, 15, 2⟩

/-- The text of digits whose first stands at the power `e` of ten. -/
def FloatFormat.write (f : FloatFormat) (digits : Text) (e : Int) : Text :=
  if f.least ≤ e ∧ e ≤ f.greatest then
    if e < 0 then "0." ++ List.replicate (-e - 1).toNat '0' ++ digits
    else
      let whole := e.toNat + 1
      let padded := digits ++ List.replicate (whole - digits.length) '0'
      let fraction := padded.drop whole
      padded.take whole ++ '.' :: (if fraction = [] then ['0'] else fraction)
  else
    let mantissa : Text := match digits with
      | d :: ds@(_ :: _) => d :: '.' :: ds
      | ds => ds
    let power := Text.ofNat e.natAbs
    mantissa ++ 'e' :: (if e < 0 then '-' else '+') ::
      (List.replicate (f.exponentDigits - power.length) '0' ++ power)

/-- The text of a floating-point number. -/
def writeFloat (x : Binary64) : Text :=
  let sign : Text := if x.negative then ['-'] else []
  if x.isZero then sign ++ "0.0"
  else
    let (digits, e) := x.shortest
    sign ++ floatFormat.write digits e

/-- The text of a number. -/
def Number.write : Number → Text
  | .natural n => Text.ofNat n.toNat
  | .negSucc n => '-' :: Text.ofNat (n.val + 1)
  | .float x => writeFloat x

/-! ## Texts and values -/

/-- A digit of a four-digit code. -/
def hexDigit (n : Nat) : Char := Nat.digitChar n

/-- A character inside quotes. -/
def writeChar (c : Char) : Text :=
  if c = '"' then ['\\', '"']
  else if c = '\\' then ['\\', '\\']
  else if c = '\x08' then ['\\', 'b']
  else if c = '\x0c' then ['\\', 'f']
  else if c = '\n' then ['\\', 'n']
  else if c = '\r' then ['\\', 'r']
  else if c = '\t' then ['\\', 't']
  else if c.toNat < 0x20 then
    ['\\', 'u', '0', '0', hexDigit (c.toNat / 16), hexDigit (c.toNat % 16)]
  else [c]

/-- A text between quotes. -/
def writeText (t : Text) : Text := '"' :: t.flatMap writeChar ++ ['"']

mutual

/-- The text of a value, without blanks. -/
def write : Json → Text
  | .null => "null"
  | .bool true => "true"
  | .bool false => "false"
  | .number n => n.write
  | .text t => writeText t
  | .array items => '[' :: Text.join "," (writeItems items) ++ [']']
  | .object fields => '\x7b' :: Text.join "," (writeFields fields) ++ ['\x7d']

/-- The text of each item. -/
def writeItems : List Json → List Text
  | [] => []
  | v :: vs => write v :: writeItems vs

/-- The text of each field. -/
def writeFields : List (Text × Json) → List Text
  | [] => []
  | (k, v) :: fs => (writeText k ++ ':' :: write v) :: writeFields fs

end

/-- The bytes of a value. -/
def encode (v : Json) : Bytes := Utf8.encode v.write

end ClusterConsole.Json
