/-
The cluster as the console knows it: a name and its members. A member is shown as an address with a
protocol in front and its status behind, and travels as a JSON object whose roles may be left out.
-/
import ClusterConsole.Json.Stream

namespace ClusterConsole

/-- A member of the cluster. -/
structure ClusterMember where
  address : Text
  protocol : Text
  status : Text
  roles : List Text := []
deriving DecidableEq, Repr

/-- The cluster that is shown. -/
structure Cluster where
  name : Text := []
  members : List ClusterMember := []
deriving DecidableEq, Repr

namespace ClusterMember

/-- How a member is shown, such as `tcp://10.0.0.1:2552 [up] roles: seed`. -/
def display (m : ClusterMember) : Text :=
  let roles : Text := if m.roles = [] then [] else " roles: " ++ Text.join ", " m.roles
  m.protocol ++ "://" ++ m.address ++ " [" ++ m.status ++ "]" ++ roles

/-- The member as JSON. -/
def toJson (m : ClusterMember) : Json :=
  .object [("address", .text m.address), ("protocol", .text m.protocol), ("status", .text m.status),
    ("roles", .ofTexts m.roles)]

/-! ## Reading JSON -/

open Json

/-- What a member is called where one is expected. -/
def what : Text := "struct ClusterMember"

/-- A member, as a value. -/
def form (surplus : Surplus) : Form ClusterMember :=
  Json.record what surplus
    [("address", checked asText), ("protocol", checked asText), ("status", checked asText),
      ("roles", checked (asList asText))]
    (fun fields => do
      let address ← needed "address" asText fields
      let protocol ← needed "protocol" asText fields
      let status ← needed "status" asText fields
      return ⟨address, protocol, status, ← optional "roles" (asList asText) [] fields⟩)
    (fun expected items => do
      let address ← item asText 0 expected items
      let protocol ← item asText 1 expected items
      let status ← item asText 2 expected items
      return ⟨address, protocol, status, ← itemOr (asList asText) 3 [] items⟩)

/-- The fields of a member that are read so far. -/
structure Fields where
  address : Option Text := none
  protocol : Option Text := none
  status : Option Text := none
  roles : Option (List Text) := none

/-- Reads the value of a field that must not come twice. -/
def readOnce {α : Type} (key : Text) (before : Option α) (reader : Read α) : Read α := fun bs =>
  match before with
  | some _ => .error (.open (.duplicateField key) bs)
  | none => do reader (← readColon bs)

/-- Reads a text. -/
def readString : Read Text := readTextValue "a string"

/-- Reads one field, before its colon; unknown ones are skipped. -/
def readField (s : Fields) (key : Text) : Read Fields := fun bs =>
  if key = "address" then
    (readOnce key s.address readString bs).map fun r => ({ s with address := some r.1 }, r.2)
  else if key = "protocol" then
    (readOnce key s.protocol readString bs).map fun r => ({ s with protocol := some r.1 }, r.2)
  else if key = "status" then
    (readOnce key s.status readString bs).map fun r => ({ s with status := some r.1 }, r.2)
  else if key = "roles" then
    (readOnce key s.roles (readList readString) bs).map fun r => ({ s with roles := some r.1 }, r.2)
  else do return (s, ← skipValue (← readColon bs))

/-- The field, or a halt that says that it is missing. -/
def present {α : Type} (name : Text) (field : Option α) (rest : Bytes) : Except Halt α :=
  match field with
  | some a => .ok a
  | none => .error (.open (.missingField name) rest)

/-- Reads the fields of a member up to the closing brace. -/
def readObject : Read ClusterMember := fun bs => do
  let (s, rest) ← readFields readField (bs.length + 1) true {} bs
  let address ← present "address" s.address rest
  let protocol ← present "protocol" s.protocol rest
  let status ← present "status" s.status rest
  return (⟨address, protocol, status, s.roles.getD []⟩, rest)

/-- Reads the text at place `i` of a list that stands for a member. -/
def readItem (i : Nat) : Read Text := fun bs => do
  match ← nextItem (i = 0) bs with
  | (.item, rest) => readString rest
  | (.close, rest) => .error (.open (.wrongLength i (elements what 4)) rest)

/-- Reads the items of a list that stands for a member. -/
def readArray : Read ClusterMember := fun bs => do
  let (address, rest) ← readItem 0 bs
  let (protocol, rest) ← readItem 1 rest
  let (status, rest) ← readItem 2 rest
  match ← nextItem false rest with
  | (.close, rest) => return (⟨address, protocol, status, []⟩, rest)
  | (.item, rest) =>
    let (roles, rest) ← readList readString rest
    return (⟨address, protocol, status, roles⟩, rest)

/-- Reads a member. -/
def reader : Read ClusterMember := fun bs =>
  match skipGaps bs with
  | 0x7B :: rest => do
    let (m, rest) ← placeInObject (readObject rest)
    return (m, ← closeObject rest)
  | 0x5B :: rest => do
    let (m, rest) ← placeInList (readArray rest)
    return (m, ← closeList rest)
  | rest => refuseNext what rest

/-- The member that a document stands for. -/
def decode (document : Bytes) : Except Json.Error ClusterMember := readDocument reader document

end ClusterMember

end ClusterConsole
