/-
Writing a TOML document. The pairs of a table come first; the tables and lists of tables inside it
follow, each under a header with its whole path and after an empty line. Arrays of two or more items
have an item a line.
-/
import ClusterConsole.Toml.Quoted
import ClusterConsole.Toml.Reader

namespace ClusterConsole.Toml

/-! ## Keys and values -/

/-- A part of a key, in quotes unless it can do without. -/
def writePart (key : Text) : Text :=
  if !key.isEmpty && key.all isBare then key
  else if key.all (fun c => isPlain c && c != '\'') && key.any (fun c => c == '"' || c == '\\') then
    '\'' :: key ++ ['\'']
  else '"' :: writeBasic false 0 0 key ++ ['"']

/-- The parts of a key with points between them. -/
def writeKey (parts : List Text) : Text := Text.join "." (parts.map writePart)

/-- The text of an integer. -/
def writeInteger (n : Int) : Text := (if n < 0 then ['-'] else []) ++ Text.ofNat n.natAbs

/-- The items of an array between its brackets: one a line if there are several. -/
def writeArray (items : List Text) : Text :=
  match items with
  | [] => "[]"
  | [item] => '[' :: item ++ [']']
  | items => '[' :: items.flatMap (fun item => "\n    ".toList ++ item ++ [',']) ++ ['\n', ']']

mutual

/-- The text of a value after an equals sign. -/
def writeValue : Toml → Text
  | .text t => writeQuoted t
  | .integer n => writeInteger n
  | .float spelling => spelling
  | .boolean true => "true"
  | .boolean false => "false"
  | .dateTime spelling => spelling
  | .array items => writeArray (writeValues items)
  | .table [] => ['\x7b', '\x7d']
  | .table (field :: fields) =>
    "\x7b " ++ Text.join ", " (writeFields (field :: fields)) ++ " \x7d"

/-- The text of each value. -/
def writeValues : List Toml → List Text
  | [] => []
  | v :: vs => writeValue v :: writeValues vs

/-- The text of each field. -/
def writeFields : List (Text × Toml) → List Text
  | [] => []
  | (k, v) :: fields => (writePart k ++ " = " ++ writeValue v) :: writeFields fields

end

/-! ## Tables -/

/-- Whether a value is written under a header: a table, or a list of tables. -/
def isSection : Toml → Bool
  | .table _ => true
  | .array items => !items.isEmpty && items.all isTable
  | _ => false

/-- The lines of the fields that are not written under headers. -/
def writePairs (fields : List (Text × Toml)) : List Text :=
  writeFields (fields.filter fun f => !isSection f.2)

mutual

/-- The sections of a value at a path: each is a header with the pairs under it, as lines. -/
def sections (path : List Text) : Toml → List (List Text)
  | .table fields =>
    let pairs := writePairs fields
    let own := if pairs = [] ∧ fields ≠ [] then [] else [("[" ++ writeKey path ++ "]") :: pairs]
    own ++ sectionsOfFields path fields
  | .array items => if isSection (.array items) then sectionsOfItems path items else []
  | _ => []

/-- The sections of every field. -/
def sectionsOfFields (path : List Text) : List (Text × Toml) → List (List Text)
  | [] => []
  | (k, v) :: fields => sections (path ++ [k]) v ++ sectionsOfFields path fields

/-- The sections of every table in a list. -/
def sectionsOfItems (path : List Text) : List Toml → List (List Text)
  | [] => []
  | .table fields :: items =>
    (("[[" ++ writeKey path ++ "]]") :: writePairs fields) ::
      (sectionsOfFields path fields ++ sectionsOfItems path items)
  | _ :: items => sectionsOfItems path items

end

/-- The document that stands for a table. -/
def write (fields : List (Text × Toml)) : Text :=
  let pairs := writePairs fields
  let blocks := (if pairs = [] then [] else [pairs]) ++ sectionsOfFields [] fields
  Text.join "\n" (blocks.map fun lines => lines.flatMap (· ++ ['\n']))

end ClusterConsole.Toml
