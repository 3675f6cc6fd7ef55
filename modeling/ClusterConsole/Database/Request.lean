/-
From the options of the `database` command to a request to the record store: a data type, exactly
one of reading, adding and deleting, and perhaps a status. The first thing that is wrong is
reported.
-/
import ClusterConsole.Json.Reader
import ClusterConsole.Options.Parse
import ClusterConsole.Record
import ClusterConsole.Text.Blank

namespace ClusterConsole.Database

/-! ## Options -/

/-- The data type of the records. -/
def typeOption : CliOption :=
  ⟨'t', some "type", some "TYPE", 1, true, false, "Data type: company or record", by decide,
    by decide, CliOption.one_arg_ok false⟩

/-- Reading, of all records or of those with the given ids. -/
def getOption : CliOption :=
  ⟨'g', some "get", some "IDS", 1, false, true, "Show records, all or by comma-separated ids",
    by decide, by decide, CliOption.one_arg_ok true⟩

/-- Adding a record. -/
def addOption : CliOption :=
  ⟨'a', some "add", some "JSON", 1, false, false, "Add a record with a JSON payload", by decide,
    by decide, CliOption.one_arg_ok false⟩

/-- Deleting records. -/
def deleteOption : CliOption :=
  ⟨'d', some "delete", some "IDS", 1, false, false, "Delete records by comma-separated ids",
    by decide, by decide, CliOption.one_arg_ok false⟩

/-- The status of the records. -/
def statusOption : CliOption :=
  ⟨'s', some "status", some "STATUS", 1, false, false, "Record status: active or inactive",
    by decide, by decide, CliOption.one_arg_ok false⟩

/-- The options of the command. -/
def options : OptionSet :=
  ⟨[addOption, deleteOption, getOption, statusOption, typeOption], by simp, by decide, by
    simp [addOption, deleteOption, getOption, statusOption, typeOption]⟩

/-! ## Values -/

/-- A decimal numeral below 2 ^ 64, perhaps with a plus sign in front. -/
def parseId (t : Text) : Option UInt64 :=
  let digits := match t with
    | '+' :: ds => ds
    | ds => ds
  if digits = [] ∨ digits.any (!Char.isDigit ·) then none
  else
    let n := digits.foldl (fun n c => n * 10 + (c.toNat - '0'.toNat)) 0
    if n < UInt64.size then some (UInt64.ofNat n) else none

/-- The pieces of an id list: what stands between commas, trimmed, unless nothing does. -/
def idPieces (t : Text) : List Text := ((t.splitOn ',').map Text.trim).filter (!List.isEmpty ·)

/-- The ids in a list, or its first piece that is none. -/
def parseIds (t : Text) : Except ConsoleError (List UInt64) :=
  (idPieces t).mapM fun piece =>
    match parseId piece with
    | some id => .ok id
    | none => .error (.handler (.invalidId piece))

/-- The status with a name in letters of either case. -/
def parseStatus (t : Text) : Except ConsoleError Bool :=
  let name := t.lowerAscii
  if name = "active".toList then .ok true
  else if name = "inactive".toList then .ok false
  else .error (.handler (.invalidStatus name))

/-- The status that the options name, if they name one. -/
def statusOf (p : ParsedOptions) : Except ConsoleError (Option Bool) :=
  match p.value 's' with
  | some t => (parseStatus t).map some
  | none => .ok none

/-- The data type that the options name. -/
def dataTypeOf (p : ParsedOptions) : Except ConsoleError DataType :=
  match p.value 't' with
  | some t => DataType.parse t
  | none => .error (.handler .missingDataType)

/-! ## Requests -/

/-- The names of the options of which exactly one is to be given. -/
def actions : List Char := ['g', 'a', 'd']

/-- The request for reading. -/
def getRequest (t : DataType) (status : Option Bool) (ids : Option Text) :
    Except ConsoleError Request :=
  match ids with
  | some ids => (parseIds ids).map fun ids => .getByIds t ids status
  | none => .ok (.getAll t)

/-- The request for adding; a record is active unless it is said to be otherwise. -/
def addRequest (t : DataType) (status : Option Bool) (json : Text) : Except ConsoleError Request :=
  match Json.readValue (Utf8.encode json) with
  | .ok data => .ok (.add t (status.getD true) data)
  | .error e => .error (.json e)

/-- The request for deleting. -/
def deleteRequest (t : DataType) (ids : Text) : Except ConsoleError Request := do
  match ← parseIds ids with
  | [] => throw (.handler .noIds)
  | ids => return .delete t ids

/-- The request that the options ask for. -/
def request (p : ParsedOptions) : Except ConsoleError Request := do
  let t ← dataTypeOf p
  let status ← statusOf p
  if (actions.filter p.has).length != 1 then throw (.handler .notOneAction)
  else if p.has 'g' then getRequest t status (p.value 'g')
  else match p.value 'a' with
    | some json => addRequest t status json
    | none => deleteRequest t ((p.value 'd').getD [])

/-- The status by which the reply to a request still has to be filtered: reading all records takes
no account of it. -/
def pendingFilter (r : Request) (p : ParsedOptions) : Except ConsoleError (Option Bool) :=
  match r with
  | .getAll _ => statusOf p
  | _ => .ok none

end ClusterConsole.Database
