/-
Texts in quotes. TOML has four ways to write a text: with escapes or literally, each on one line or
on several. `write` picks the plainest way that shows the text as it is; the readers take the text
after the opening quotes and give it back with what follows the closing ones.
-/
import ClusterConsole.Text

namespace ClusterConsole.Toml

/-- Whether `c` may stand in quotes and in comments as it is. -/
def isPlain (c : Char) : Bool := c == '\t' || (0x20 ≤ c.toNat && c.toNat != 0x7F)

/-! ## Escapes -/

/-- The character that a letter after a backslash stands for. -/
def escapedBy (c : Char) : Option Char :=
  if c = 'b' then some '\x08'
  else if c = 't' then some '\t'
  else if c = 'n' then some '\n'
  else if c = 'f' then some '\x0c'
  else if c = 'r' then some '\r'
  else if c = '"' then some '"'
  else if c = '\\' then some '\\'
  else none

/-- The value of a numeral made of hexadecimal digits only. -/
def hexadecimal? (t : Text) : Option Nat :=
  t.foldlM (fun n c => (Text.hexDigit? c).map (n * 16 + ·)) 0

/-- The character with the code point that hexadecimal digits give. -/
def codePoint? (digits : Text) : Option Char := do
  let n ← hexadecimal? digits
  if n.isValidChar then some (Char.ofNat n) else none

/-! ## Reading -/

/-- Reads a text with escapes on one line, up to its closing quote. -/
def readBasic : Text → Option (Text × Text)
  | [] => none
  | '"' :: rest => some ([], rest)
  | '\\' :: 'u' :: a :: b :: c :: d :: rest => do
    let char ← codePoint? [a, b, c, d]
    let (t, rest) ← readBasic rest
    return (char :: t, rest)
  | '\\' :: 'U' :: a :: b :: c :: d :: e :: f :: g :: h :: rest => do
    let char ← codePoint? [a, b, c, d, e, f, g, h]
    let (t, rest) ← readBasic rest
    return (char :: t, rest)
  | '\\' :: c :: rest => do
    let char ← escapedBy c
    let (t, rest) ← readBasic rest
    return (char :: t, rest)
  | c :: rest => do
    guard (isPlain c && c != '\\')
    let (t, rest) ← readBasic rest
    return (c :: t, rest)

/-- Whether only blanks stand before the end of the line. -/
def endsLine (t : Text) : Bool :=
  match t.dropWhile fun c => c == ' ' || c == '\t' with
  | '\n' :: _ => true
  | '\r' :: '\n' :: _ => true
  | _ => false

/-- Reads the closing quotes of a text on several lines: up to two quotes in front of them belong to
the text. -/
def readClosing (quote : Char) : Text → Option (Text × Text)
  | a :: b :: c :: d :: e :: rest =>
    if a = quote ∧ b = quote ∧ c = quote then
      if d = quote then
        if e = quote then some ([quote, quote], rest) else some ([quote], e :: rest)
      else some ([], d :: e :: rest)
    else none
  | [a, b, c, d] =>
    if a = quote ∧ b = quote ∧ c = quote then
      if d = quote then some ([quote], []) else some ([], [d])
    else none
  | [a, b, c] => if a = quote ∧ b = quote ∧ c = quote then some ([], []) else none
  | _ => none

/-- Reads a text with escapes on several lines, up to its closing quotes. A backslash at the end of
a line takes away all blanks and line ends that follow; `skipping` says that some are being taken
away. -/
def readBasicLines : (skipping : Bool) → Text → Option (Text × Text)
  | _, [] => none
  | skipping, '\r' :: '\n' :: rest =>
    if skipping then readBasicLines true rest
    else (readBasicLines false rest).map fun r => ('\n' :: r.1, r.2)
  | _, '\\' :: 'u' :: a :: b :: c :: d :: rest => do
    let char ← codePoint? [a, b, c, d]
    let (t, rest) ← readBasicLines false rest
    return (char :: t, rest)
  | _, '\\' :: 'U' :: a :: b :: c :: d :: e :: f :: g :: h :: rest => do
    let char ← codePoint? [a, b, c, d, e, f, g, h]
    let (t, rest) ← readBasicLines false rest
    return (char :: t, rest)
  | _, '\\' :: c :: rest =>
    if endsLine (c :: rest) then readBasicLines true rest
    else do
      let char ← escapedBy c
      let (t, rest) ← readBasicLines false rest
      return (char :: t, rest)
  | skipping, c :: rest =>
    if skipping && (c == ' ' || c == '\t' || c == '\n') then readBasicLines true rest
    else match readClosing '"' (c :: rest) with
      | some closing => some closing
      | none =>
        if (isPlain c && c != '\\') || c == '\n' then
          (readBasicLines false rest).map fun r => (c :: r.1, r.2)
        else none

/-- Reads a literal text on one line, up to its closing quote. -/
def readLiteral : Text → Option (Text × Text)
  | [] => none
  | '\'' :: rest => some ([], rest)
  | c :: rest => if isPlain c then (readLiteral rest).map fun r => (c :: r.1, r.2) else none

/-- Reads a literal text on several lines, up to its closing quotes. -/
def readLiteralLines : Text → Option (Text × Text)
  | [] => none
  | '\r' :: '\n' :: rest => (readLiteralLines rest).map fun r => ('\n' :: r.1, r.2)
  | c :: rest =>
    match readClosing '\'' (c :: rest) with
    | some closing => some closing
    | none =>
      if isPlain c || c == '\n' then (readLiteralLines rest).map fun r => (c :: r.1, r.2) else none

/-- The text without a line end at its front. -/
def dropLineEnd : Text → Text
  | '\n' :: rest => rest
  | '\r' :: '\n' :: rest => rest
  | t => t

/-- Reads a text in quotes of any kind. -/
def readQuoted : Text → Option (Text × Text)
  | '"' :: '"' :: '"' :: rest => readBasicLines false (dropLineEnd rest)
  | '"' :: rest => readBasic rest
  | '\'' :: '\'' :: '\'' :: rest => readLiteralLines (dropLineEnd rest)
  | '\'' :: rest => readLiteral rest
  | _ => none

/-! ## Writing -/

/-- The ways to write a text. -/
inductive QuoteStyle
  | basic
  | literal
  | basicLines
  | literalLines
deriving DecidableEq, Repr

/-- The length of the longest run of `c`, where `n` of them stand in front. -/
def longestRun (c : Char) (n : Nat) : Text → Nat
  | [] => n
  | d :: t => if d = c then longestRun c (n + 1) t else max n (longestRun c 0 t)

/-- The plainest way that shows the text as it is; where none does, a way with escapes. -/
def QuoteStyle.of (t : Text) : QuoteStyle :=
  let clean := t.all fun c => isPlain c || c == '\n'
  let oneLine := !t.contains '\n'
  let unescaped := clean && !t.contains '\\'
  if unescaped && oneLine && !t.contains '"' then .basic
  else if clean && oneLine && !t.contains '\'' then .literal
  else if unescaped && longestRun '"' 0 t ≤ 2 then .basicLines
  else if clean && longestRun '\'' 0 t ≤ 2 then .literalLines
  else if oneLine then .basic
  else .basicLines

/-- A code point in four hexadecimal digits, in capitals. -/
def writeCodePoint (n : Nat) : Text :=
  let digits := (Nat.toDigits 16 n).map Char.toUpper
  '\\' :: 'u' :: (List.replicate (4 - digits.length) '0' ++ digits)

/-- A character other than a quote, escaped where it has to be. -/
def writeEscaped (c : Char) : Text :=
  if c = '\x08' then ['\\', 'b']
  else if c = '\t' then ['\\', 't']
  else if c = '\n' then ['\\', 'n']
  else if c = '\x0c' then ['\\', 'f']
  else if c = '\r' then ['\\', 'r']
  else if c = '\\' then ['\\', '\\']
  else if isPlain c then [c]
  else writeCodePoint c.toNat

/-- The inside of a text with escapes. Up to `allowed` quotes may follow each other, of which `n`
stand in front; line ends stay where `lines` are. -/
def writeBasic (lines : Bool) (allowed : Nat) : (n : Nat) → Text → Text
  | _, [] => []
  | n, c :: t =>
    if c = '"' then
      if n < allowed then '"' :: writeBasic lines allowed (n + 1) t
      else '\\' :: '"' :: writeBasic lines allowed 0 t
    else if lines && c == '\n' then '\n' :: writeBasic lines allowed 0 t
    else writeEscaped c ++ writeBasic lines allowed 0 t

/-- A text between triple quotes; one with line ends begins on a line of its own. -/
def betweenTriple (quote : Char) (t inside : Text) : Text :=
  let marks := List.replicate 3 quote
  marks ++ (if t.contains '\n' then ['\n'] else []) ++ inside ++ marks

/-- The text in quotes. -/
def writeQuoted (t : Text) : Text :=
  match QuoteStyle.of t with
  | .basic => '"' :: writeBasic false 0 0 t ++ ['"']
  | .literal => '\'' :: t ++ ['\'']
  | .basicLines => betweenTriple '"' t (writeBasic true 2 0 t)
  | .literalLines => betweenTriple '\'' t t

end ClusterConsole.Toml
