/-
Reading a TOML document. The text is read into statements, one a line; values in brackets may reach
over several lines, values in braces may not. Every reader takes the text that is left and gives
back what it found with the text after it, or nothing. `read` gives the table that the whole
document stands for.
-/
import ClusterConsole.Toml.Draft
import ClusterConsole.Toml.Quoted
import ClusterConsole.Toml.Scalar

namespace ClusterConsole.Toml

/-! ## Blanks and comments -/

/-- Whether `c` is a space or a tab. -/
def isGap (c : Char) : Bool := c == ' ' || c == '\t'

/-- The text from the first character on that is neither a space nor a tab. -/
def skipGaps (t : Text) : Text := t.dropWhile isGap

/-- The text after the gaps, line ends and comments at its front; `inComment` says that a comment
has begun. -/
def skipFill : (inComment : Bool) → Text → Text
  | _, [] => []
  | _, '\r' :: '\n' :: rest => skipFill false rest
  | inComment, c :: rest =>
    if c = '\n' then skipFill false rest
    else if c = '#' || (inComment && isPlain c) then skipFill true rest
    else if isGap c then skipFill false rest
    else c :: rest

/-- Reads a line end, or the end of the document. -/
def readLineEnd : Text → Option Text
  | [] => some []
  | '\n' :: rest => some rest
  | '\r' :: '\n' :: rest => some rest
  | _ => none

/-- Reads the rest of a line that says nothing more. -/
def readTrailing (t : Text) : Option Text :=
  match skipGaps t with
  | '#' :: rest => readLineEnd (rest.dropWhile isPlain)
  | rest => readLineEnd rest

/-! ## Keys -/

/-- Whether `c` may stand in a key without quotes. -/
def isBare (c : Char) : Bool := c.isAlphanum || c == '-' || c == '_'

/-- Reads one part of a key. -/
def readPart : Text → Option (Text × Text)
  | '"' :: rest => readBasic rest
  | '\'' :: rest => readLiteral rest
  | t => if t.takeWhile isBare = [] then none else some (t.takeWhile isBare, t.dropWhile isBare)

/-- Reads the parts of a key, with points between them. -/
def readParts : (fuel : Nat) → Text → Option (List Text × Text)
  | 0, _ => none
  | fuel + 1, t => do
    let (part, rest) ← readPart (skipGaps t)
    match skipGaps rest with
    | '.' :: rest => do
      let (parts, rest) ← readParts fuel rest
      return (part :: parts, rest)
    | rest => return ([part], rest)

/-- Reads a key: the parts in front of the last one, and the last one. -/
def readKey (t : Text) : Option ((List Text × Text) × Text) := do
  let (parts, rest) ← readParts (t.length + 1) t
  if parts.length < depthLimit then
    match parts.reverse with
    | [] => none
    | last :: before => return ((before.reverse, last), rest)
  else none

/-! ## Values -/

/-- A reader of values. -/
abbrev ValueReader := Text → Option (Toml × Text)

/-- Reads the items of an array up to its closing bracket; a comma may follow the last one. -/
def readItems (value : ValueReader) : (fuel : Nat) → Text → Option (List Toml × Text)
  | 0, _ => none
  | fuel + 1, t =>
    match skipFill false t with
    | ']' :: rest => some ([], rest)
    | t => do
      let (v, rest) ← value t
      match skipFill false rest with
      | ',' :: rest => do
        let (vs, rest) ← readItems value fuel rest
        return (v :: vs, rest)
      | ']' :: rest => return ([v], rest)
      | _ => none

/-- Reads a key, an equals sign and a value. -/
def readPair (value : ValueReader) (t : Text) : Option ((List Text × Text × Toml) × Text) := do
  let ((path, key), rest) ← readKey t
  match rest with
  | '=' :: rest => do
    let (v, rest) ← value (skipGaps rest)
    return ((path, key, v), rest)
  | _ => none

/-- Reads pairs with commas between them, up to the closing brace. -/
def readPairs (value : ValueReader) :
    (fuel : Nat) → Text → Option (List (List Text × Text × Toml) × Text)
  | 0, _ => none
  | fuel + 1, t => do
    let (pair, rest) ← readPair value t
    match skipGaps rest with
    | ',' :: rest => do
      let (pairs, rest) ← readPairs value fuel rest
      return (pair :: pairs, rest)
    | '\x7d' :: rest => return ([pair], rest)
    | _ => none

/-- Reads a value in which arrays and tables stand at most `depth - 1` deep. -/
def readValue : (depth : Nat) → ValueReader
  | 0, _ => none
  | depth + 1, t =>
    match t with
    | '[' :: rest => do
      guard (depth != 0)
      let (items, rest) ← readItems (readValue depth) (rest.length + 1) rest
      return (.array items, rest)
    | '\x7b' :: rest => do
      guard (depth != 0)
      match skipGaps rest with
      | '\x7d' :: rest => return (.table [], rest)
      | rest => do
        let (pairs, rest) ← readPairs (readValue depth) (rest.length + 1) rest
        return (← ofPairs pairs, rest)
    | c :: _ =>
      if c = '"' ∨ c = '\'' then (readQuoted t).map fun r => (.text r.1, r.2) else readScalar t
    | [] => none

/-! ## Documents -/

/-- Reads a line that begins with something other than a gap. -/
def readStatement (t : Text) : Option (Option Statement × Text) :=
  match t with
  | '[' :: '[' :: rest => do
    let ((path, key), rest) ← readKey rest
    match rest with
    | ']' :: ']' :: rest => return (some (.item path key), ← readTrailing rest)
    | _ => none
  | '[' :: rest => do
    let ((path, key), rest) ← readKey rest
    match rest with
    | ']' :: rest => return (some (.table path key), ← readTrailing rest)
    | _ => none
  | c :: _ =>
    if c = '#' ∨ c = '\n' ∨ c = '\r' then (readTrailing t).map fun rest => (none, rest)
    else do
      let ((path, key, v), rest) ← readPair (readValue depthLimit) t
      return (some (.pair path key v), ← readTrailing rest)
  | [] => none

/-- Reads all statements. -/
def readStatements : (fuel : Nat) → Text → Option (List Statement)
  | 0, _ => none
  | fuel + 1, t =>
    match skipGaps t with
    | [] => some []
    | t => do
      let (statement, rest) ← readStatement t
      let statements ← readStatements fuel rest
      return statement.toList ++ statements

/-- The text without a byte order mark at its front. -/
def dropMark : Text → Text
  | c :: t => if c.toNat = 0xFEFF then t else c :: t
  | [] => []

/-- The statements of a document. -/
def statements (document : Text) : Option (List Statement) :=
  readStatements (document.length + 1) (dropMark document)

/-- The fields of the table that a document stands for. -/
def read (document : Text) : Option (List (Text × Toml)) := do ofStatements (← statements document)

end ClusterConsole.Toml
