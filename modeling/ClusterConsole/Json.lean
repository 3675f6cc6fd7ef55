/-
JSON values. Numbers are 64-bit integers where they are written as such and fit, and binary
floating-point numbers otherwise. A document may give an object's fields in any order and more than
once; `canonical` orders the fields by key, the last of each, and is what records keep.
-/
import ClusterConsole.Ascending
import ClusterConsole.Binary64
import ClusterConsole.Text

namespace ClusterConsole

namespace Json

/-- A number: a natural number, a negative integer `-(n + 1)`, or a floating-point number. -/
inductive Number
  | natural (n : UInt64)
  | negSucc (n : Fin 0x8000000000000000)
  | float (x : Binary64)
deriving DecidableEq, Repr

end Json

/-- A JSON value; the fields of an object are in the order in which they are written. -/
inductive Json
  | null
  | bool (b : Bool)
  | number (n : Json.Number)
  | text (t : Text)
  | array (items : List Json)
  | object (fields : List (Text × Json))
deriving Repr

namespace Json

/-- The natural number `n`. -/
def ofUInt64 (n : UInt64) : Json := .number (.natural n)

/-- The array of texts. -/
def ofTexts (ts : List Text) : Json := .array (ts.map .text)

mutual

/-- The value with the fields of every object in ascending order of their keys; of several fields
with one key, the last. -/
def canonical : Json → Json
  | .array items => .array (canonicalItems items)
  | .object fields => .object (Ascending.ofList Prod.fst (canonicalFields fields))
  | v => v

/-- Every item in canonical form. -/
def canonicalItems : List Json → List Json
  | [] => []
  | v :: vs => canonical v :: canonicalItems vs

/-- Every field with its value in canonical form. -/
def canonicalFields : List (Text × Json) → List (Text × Json)
  | [] => []
  | (k, v) :: fs => (k, canonical v) :: canonicalFields fs

end

/-- The value of the first field named `key`. -/
def field? (key : Text) (fields : List (Text × Json)) : Option Json := fields.lookup key

end Json

end ClusterConsole
