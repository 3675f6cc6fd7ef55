/-
Values of an expected form. A form is a function that gives what a value stands for, or says why it
stands for nothing. Objects are judged field by field, in the order in which they are written;
an array may stand for an object, its items for the fields in their order.
-/
import ClusterConsole.Json.Fault

namespace ClusterConsole.Json

/-- What a value stands for, or why it stands for nothing. -/
abbrev Form (α : Type) := Json → Except Mismatch α

/-- Refuses a value, naming what was expected. -/
def refuse {α : Type} (expected : Text) (v : Json) : Except Mismatch α :=
  .error (.wrongType (found v) expected)

/-! ## Simple forms -/

/-- A text. -/
def asText : Form Text
  | .text t => .ok t
  | v => refuse "a string" v

/-- A truth value. -/
def asBool : Form Bool
  | .bool b => .ok b
  | v => refuse "a boolean" v

/-- A natural number below 2 ^ 64. -/
def asUInt64 : Form UInt64
  | .number (.natural n) => .ok n
  | .number (.negSucc n) => .error (.wrongValue (.number (.negSucc n)) "u64")
  | v => refuse "u64" v

/-- An array of which every item has the given form. -/
def asList {α : Type} (item : Form α) : Form (List α)
  | .array items => items.mapM item
  | v => refuse "a sequence" v

/-- `null`, or a value of the given form. -/
def asOption {α : Type} (form : Form α) : Form (Option α)
  | .null => .ok none
  | v => (form v).map some

/-- One of several names: as a text, or as the only key of an object whose value is nothing. -/
def asName {α : Type} (known : List (Text × α)) : Form α
  | .text t => pick t
  | .object [(k, v)] => do
    let a ← pick k
    match v with
    | .null => return a
    | .object [] => return a
    | v => refuse "unit" v
  | .object _ => .error (.wrongValue .map "map with a single key")
  | v => refuse "string or map" v
where
  /-- What a name stands for. -/
  pick (t : Text) : Except Mismatch α :=
    match known.lookup t with
    | some a => .ok a
    | none => .error (.unknownVariant t (known.map Prod.fst))

/-! ## Fields -/

/-- The form a field must have, without what it stands for. -/
def checked {α : Type} (form : Form α) : Form Unit := fun v => (form v).map fun _ => ()

/-- Judges the fields in their order: a known field must have its form and must not come twice;
others are of no account. -/
def checkFields (known : List (Text × Form Unit)) (seen : List Text) :
    List (Text × Json) → Except Mismatch Unit
  | [] => .ok ()
  | (k, v) :: fields =>
    match known.lookup k with
    | none => checkFields known seen fields
    | some form =>
      if seen.contains k then .error (.duplicateField k)
      else do
        form v
        checkFields known (k :: seen) fields

/-- A field that must be there. -/
def needed {α : Type} (name : Text) (form : Form α) (fields : List (Text × Json)) :
    Except Mismatch α :=
  match field? name fields with
  | some v => form v
  | none => .error (.missingField name)

/-- A field that has a default. -/
def optional {α : Type} (name : Text) (form : Form α) (default : α) (fields : List (Text × Json)) :
    Except Mismatch α :=
  match field? name fields with
  | some v => form v
  | none => .ok default

/-! ## Items in place of fields -/

/-- What an array in place of an object is expected to be. -/
def elements (what : Text) (n : Nat) : Text :=
  what ++ " with " ++ Text.ofNat n ++ (if n = 1 then " element" else " elements" : Text)

/-- The item at place `i`, which must be there. -/
def item {α : Type} (form : Form α) (i : Nat) (expected : Text) (items : List Json) :
    Except Mismatch α :=
  match items[i]? with
  | some v => form v
  | none => .error (.wrongLength i expected)

/-- The item at place `i`, or a default. -/
def itemOr {α : Type} (form : Form α) (i : Nat) (default : α) (items : List Json) :
    Except Mismatch α :=
  match items[i]? with
  | some v => form v
  | none => .ok default

/-- Refuses items beyond the first `n`. -/
def noMoreThan (n : Nat) (items : List Json) : Except Mismatch Unit :=
  if items.length ≤ n then .ok ()
  else .error (.wrongLength items.length
    (Text.ofNat n ++ (if n = 1 then " element in sequence" else " elements in sequence" : Text)))

/-! ## Structures -/

/-- How the items of an array beyond those that are wanted are refused. -/
abbrev Surplus := (n : Nat) → (items : List Json) → Except Mismatch Unit

/-- A structure with the known fields, given as an object or as an array. -/
def record {α : Type} (what : Text) (surplus : Surplus) (known : List (Text × Form Unit))
    (ofFields : List (Text × Json) → Except Mismatch α)
    (ofItems : (expected : Text) → List Json → Except Mismatch α) : Form α
  | .object fields => do
    checkFields known [] fields
    ofFields fields
  | .array items => do
    let a ← ofItems (elements what known.length) items
    surplus known.length items
    return a
  | v => refuse what v

end ClusterConsole.Json
