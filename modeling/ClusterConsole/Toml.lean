/-
TOML values. Floating-point numbers and dates are kept as they are spelled, since the console never
computes with them. The fields of a table are in the order in which they are written.
-/
import ClusterConsole.Text

namespace ClusterConsole

/-- A TOML value. -/
inductive Toml
  | text (t : Text)
  | integer (n : Int)
  | float (spelling : Text)
  | boolean (b : Bool)
  | dateTime (spelling : Text)
  | array (items : List Toml)
  | table (fields : List (Text × Toml))
deriving Repr

namespace Toml

/-- The value of the field named `key`. -/
def field? (key : Text) (fields : List (Text × Toml)) : Option Toml := fields.lookup key

/-- Whether a value is a table. -/
def isTable : Toml → Bool
  | .table _ => true
  | _ => false

/-- The array of texts. -/
def ofTexts (ts : List Text) : Toml := .array (ts.map .text)

/-- How many tables, arrays or parts of a key are inside each other at most, with one to spare. -/
def depthLimit : Nat := 80

end Toml

end ClusterConsole
