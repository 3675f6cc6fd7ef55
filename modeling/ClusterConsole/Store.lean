/-
The record store: records in the order of their types and ids, and the id that the next one gets.
Ids are counted through both types. A deletion takes effect for all of its ids or for none.
-/
import ClusterConsole.Record.Dump
import ClusterConsole.Record.Wire

namespace ClusterConsole

/-- What a record is found by. -/
structure RecordKey where
  dataType : DataType
  id : UInt64
deriving DecidableEq

instance : Ord RecordKey := ⟨compareLex (compareOn RecordKey.dataType) (compareOn RecordKey.id)⟩

/-- The key of a record. -/
def Record.key (r : Record) : RecordKey := ⟨r.dataType, r.id⟩

/-- The records in ascending order of their keys, and the next id. -/
structure Store where
  nextId : UInt64
  records : List Record

namespace Store

/-- The store without records. -/
def empty : Store := ⟨1, []⟩

/-- The number of records. -/
def size (s : Store) : Nat := s.records.length

/-- The record of a type with an id. -/
def get? (s : Store) (t : DataType) (id : UInt64) : Option Record :=
  Ascending.find? Record.key ⟨t, id⟩ s.records

/-- The records of a type, in ascending order of their ids. -/
def ofType (s : Store) (t : DataType) : List Record := s.records.filter (·.dataType == t)

/-- Whether a record has the status that is asked for, if one is. -/
def hasStatus (active : Option Bool) (r : Record) : Bool := active.all (r.active == ·)

/-- The store without the record of a type with an id. -/
def erase (s : Store) (t : DataType) (id : UInt64) : Store :=
  { s with records := Ascending.erase Record.key ⟨t, id⟩ s.records }

/-- Removes the records with the given ids, and gives those that were there. -/
def remove (s : Store) (t : DataType) : List UInt64 → Store × List Record
  | [] => (s, [])
  | id :: ids =>
    let (s', removed) := (s.erase t id).remove t ids
    (s', (s.get? t id).toList ++ removed)

/-- What is said of ids that have no record. -/
def missingMessage (t : DataType) (ids : List UInt64) : Text :=
  "no " ++ t.name ++ " with id " ++ Text.join ", " (ids.map fun id => Text.ofNat id.toNat)

/-- Runs a request. -/
def apply (s : Store) : Request → Store × Reply
  | .getAll t => (s, .records (s.ofType t))
  | .getByIds t ids active => (s, .records ((ids.filterMap (s.get? t)).filter (hasStatus active)))
  | .add t active data =>
    let r : Record := ⟨s.nextId, t, active, data⟩
    (⟨s.nextId + 1, Ascending.insert Record.key r s.records⟩, .records [r])
  | .delete t ids =>
    let missing := ids.filter fun id => (s.get? t id).isNone
    if missing = [] then
      let (s', removed) := s.remove t ids
      (s', .records removed)
    else (s, .failure (missingMessage t missing))

/-- Runs the requests one after another. -/
def applyAll (s : Store) : List Request → Store × List Reply
  | [] => (s, [])
  | r :: rs =>
    let (s, reply) := s.apply r
    let (s, replies) := s.applyAll rs
    (s, reply :: replies)

/-- What is said when a reply comes in place of a request. -/
def notRequestMessage (r : Reply) : Text := "not a persistence request: " ++ r.dump

/-- Runs the request in an envelope; whatever is wrong with it is reported in the reply. -/
def call (s : Store) (e : Envelope) : Store × Envelope :=
  match e.decode with
  | .ok (.request r) =>
    let (s, reply) := s.apply r
    (s, reply.seal)
  | .ok (.reply r) => (s, (Reply.failure (notRequestMessage r)).seal)
  | .error err => (s, (Reply.failure err.message).seal)

end Store

end ClusterConsole
