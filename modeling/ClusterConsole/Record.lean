/-
Stored records and the messages about them: what can be asked of the record store, and what it
replies.
-/
import ClusterConsole.ConsoleError
import ClusterConsole.Json

namespace ClusterConsole

/-! ## Data types -/

/-- The kind of a record. -/
inductive DataType
  | company
  | record
deriving DecidableEq, Repr

namespace DataType

/-- All kinds, in the order in which they are shown. -/
def all : List DataType := [.company, .record]

/-- The name of a kind. -/
def name : DataType → Text
  | .company => "company"
  | .record => "record"

/-- The kind with a name in letters of either case. -/
def parse (t : Text) : Except ConsoleError DataType :=
  match all.find? (·.name == t.lowerAscii) with
  | some d => .ok d
  | none => .error (.codec (.unknownDataType t.lowerAscii))

/-- The place of a kind in the order. -/
def rank : DataType → Nat
  | .company => 0
  | .record => 1

instance : Ord DataType := ⟨compareOn rank⟩

end DataType

/-! ## Records and messages -/

/-- A stored record. -/
structure Record where
  id : UInt64
  dataType : DataType
  active : Bool
  /-- What the operator stored. -/
  data : Json

/-- What is asked of the record store. -/
inductive Request
  /-- Every record of a type. -/
  | getAll (dataType : DataType)
  /-- The records with the given ids, of any status or of one. -/
  | getByIds (dataType : DataType) (ids : List UInt64) (active : Option Bool)
  /-- A new record, to be given an id. -/
  | add (dataType : DataType) (active : Bool) (data : Json)
  /-- The removal of the records with the given ids. -/
  | delete (dataType : DataType) (ids : List UInt64)

/-- The kind of record that a request is about. -/
def Request.dataType : Request → DataType
  | .getAll t => t
  | .getByIds t _ _ => t
  | .add t _ _ => t
  | .delete t _ => t

/-- What the record store replies. -/
inductive Reply
  /-- The records that were asked for, added or deleted. -/
  | records (records : List Record)
  | failure (message : Text)

end ClusterConsole
