/-
Putting a document together. A document is a list of statements: headers of tables, headers of
entries in lists of tables, and pairs of a dotted key and a value. Statements are carried out on a
draft, which remembers how each of its tables came about, because that decides what may still be
added to it. `ofStatements` carries them out and forgets the difference.
-/
import ClusterConsole.Toml

namespace ClusterConsole.Toml

/-- How a table came about. -/
inductive Origin
  /-- It has a header of its own, or is written in braces, or is the document. -/
  | declared
  /-- The header of a table inside it names it. -/
  | implied
  /-- A dotted key names it. -/
  | dotted
deriving DecidableEq, Repr

/-- A value that may still grow. -/
inductive Draft
  | value (v : Toml)
  | table (origin : Origin) (fields : List (Text × Draft))
  /-- A list of tables that headers add to; the last one is open. -/
  | tables (items : List (List (Text × Draft)))

namespace Draft

/-- The fields of a table. -/
abbrev Fields := List (Text × Draft)

/-- The fields with another value for the first one named `key`, or with a new one at the end. -/
def put (key : Text) (d : Draft) : Fields → Fields
  | [] => [(key, d)]
  | (k, old) :: fields => if k = key then (k, d) :: fields else (k, old) :: put key d fields

/-- Changes the table at a path, which is made where it is missing. Along a dotted key no table
with a header of its own is entered; a list of tables is entered at its last one. -/
def changeAt (alongKey : Bool) (change : Origin → Fields → Option Fields) :
    (path : List Text) → Origin → Fields → Option Fields
  | [], origin, fields => change origin fields
  | key :: path, _, fields =>
    match fields.lookup key with
    | none => do
      let origin := if alongKey then .dotted else .implied
      let inner ← changeAt alongKey change path origin []
      return put key (.table origin inner) fields
    | some (.value _) => none
    | some (.table origin inner) => do
      if alongKey && origin == .declared then none
      else return put key (.table origin (← changeAt alongKey change path origin inner)) fields
    | some (.tables items) => do
      let last ← items.getLast?
      let last ← changeAt alongKey change path .declared last
      return put key (.tables (items.dropLast ++ [last])) fields

/-- Adds a pair whose key has `path` in front of its last part. No pair comes twice, and a dotted
key adds only to tables that dotted keys have made. -/
def addPair (path : List Text) (key : Text) (v : Toml) (origin : Origin) (fields : Fields) :
    Option Fields :=
  let add := fun (origin : Origin) (fields : Fields) =>
    if (origin == .dotted) == path.isEmpty then none
    else match fields.lookup key with
      | some _ => none
      | none => some (put key (.value v) fields)
  changeAt true add path origin fields

/-- Opens the table named `key`, which must be new or only implied so far. -/
def openTable (key : Text) (_ : Origin) (fields : Fields) : Option Fields :=
  match fields.lookup key with
  | none => some (put key (.table .declared []) fields)
  | some (.table .implied inner) => some (put key (.table .declared inner) fields)
  | some _ => none

/-- Opens another table in the list of tables named `key`. -/
def openItem (key : Text) (_ : Origin) (fields : Fields) : Option Fields :=
  match fields.lookup key with
  | none => some (put key (.tables [[]]) fields)
  | some (.tables items) => some (put key (.tables (items ++ [[]])) fields)
  | some _ => none

end Draft

/-! ## Statements -/

/-- A line of a document that says something; a path and a key are the parts of a dotted key. -/
inductive Statement
  | pair (path : List Text) (key : Text) (v : Toml)
  | table (path : List Text) (key : Text)
  | item (path : List Text) (key : Text)
deriving Repr

/-- A draft of the document, and the path of the table that the next pairs belong to. -/
structure Draft.State where
  fields : Draft.Fields := []
  current : List Text := []

/-- Carries out a statement. -/
def Draft.State.step (s : Draft.State) : Statement → Option Draft.State
  | .pair path key v => do
    return { s with fields := ← changeAt false (addPair path key v) s.current .declared s.fields }
  | .table path key => do
    return ⟨← changeAt false (openTable key) path .declared s.fields, path ++ [key]⟩
  | .item path key => do
    return ⟨← changeAt false (openItem key) path .declared s.fields, path ++ [key]⟩

mutual

/-- The value that a draft has become. -/
def Draft.toToml : Draft → Toml
  | .value v => v
  | .table _ fields => .table (Draft.toFields fields)
  | .tables items => .array (Draft.toItems items)

/-- The fields with the values that they have become. -/
def Draft.toFields : List (Text × Draft) → List (Text × Toml)
  | [] => []
  | (k, d) :: fields => (k, Draft.toToml d) :: Draft.toFields fields

/-- The tables with the values that they have become. -/
def Draft.toItems : List (List (Text × Draft)) → List Toml
  | [] => []
  | fields :: items => .table (Draft.toFields fields) :: Draft.toItems items

end

/-- The table that the statements amount to, if they do not contradict each other. -/
def ofStatements (statements : List Statement) : Option (List (Text × Toml)) := do
  let s ← statements.foldlM Draft.State.step {}
  return Draft.toFields s.fields

/-- The table that pairs in braces amount to. -/
def ofPairs (pairs : List (List Text × Text × Toml)) : Option Toml := do
  let fields ← pairs.foldlM
    (fun fields p => Draft.addPair p.1 p.2.1 p.2.2 .declared fields) ([] : Draft.Fields)
  return .table (Draft.toFields fields)

end ClusterConsole.Toml
