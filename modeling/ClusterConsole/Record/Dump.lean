/-
A reply as it is shown when it turns up where a request belongs: every part by its name, texts in
quotes.
-/
import ClusterConsole.Record

namespace ClusterConsole

mutual

/-- A value with the names of its parts. -/
def Json.dump : Json → Text
  | .null => "Null"
  | .bool true => "Bool(true)"
  | .bool false => "Bool(false)"
  | .number n => "Number(" ++ n.write ++ ")"
  | .text t => "String(" ++ t.quoted ++ ")"
  | .array items => "Array [" ++ Text.join ", " (Json.dumpItems items) ++ "]"
  | .object fields => "Object \x7b" ++ Text.join ", " (Json.dumpFields fields) ++ "\x7d"

/-- Every item with the names of its parts. -/
def Json.dumpItems : List Json → List Text
  | [] => []
  | v :: vs => Json.dump v :: Json.dumpItems vs

/-- Every field with the names of its parts. -/
def Json.dumpFields : List (Text × Json) → List Text
  | [] => []
  | (k, v) :: fs => (k.quoted ++ ": " ++ Json.dump v) :: Json.dumpFields fs

end

/-- The kind with a capital letter. -/
def DataType.dump : DataType → Text
  | .company => "Company"
  | .record => "Record"

/-- A record with the names of its fields. -/
def Record.dump (r : Record) : Text :=
  "Record \x7b id: " ++ Text.ofNat r.id.toNat ++ ", data_type: " ++ r.dataType.dump ++
    ", active: " ++ (if r.active then "true" else "false" : Text) ++
    ", data: " ++ r.data.dump ++ " \x7d"

/-- A reply with the names of its parts. -/
def Reply.dump : Reply → Text
  | .records rs =>
    "PersistenceReply(Records \x7b records: [" ++ Text.join ", " (rs.map Record.dump) ++ "] \x7d)"
  | .failure message => "PersistenceReply(Failure \x7b message: " ++ message.quoted ++ " \x7d)"

end ClusterConsole
