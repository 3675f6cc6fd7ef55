/-
How the reply of the record store is shown: a line for each record that passes the filter, or one
line that says why there is none.
-/
import ClusterConsole.Event
import ClusterConsole.Json.Writer
import ClusterConsole.Listing
import ClusterConsole.Record

namespace ClusterConsole

namespace Record

/-- The name of the record's status. -/
def statusName (r : Record) : Text := if r.active then "active" else "inactive"

/-- The line that shows a record: its id, type and status in columns, and its data. -/
def line (r : Record) : Text :=
  (Text.ofNat r.id.toNat).padLeft 6 ++ "  " ++ r.dataType.name.padRight 8 ++ " " ++
    r.statusName.padRight 9 ++ " " ++ r.data.write

end Record

namespace Database

/-- The events that show records, of any status or of one. -/
def recordEvents (filter : Option Bool) (records : List Record) : List Event :=
  match records.filter fun r => filter.all (r.active == ·) with
  | [] => [Event.last "No records."]
  | shown => Event.listing (shown.map Record.line)

/-- The events that show a reply. -/
def replyEvents (filter : Option Bool) : Reply → List Event
  | .records records => recordEvents filter records
  | .failure message => [Event.last ("database error: " ++ message)]

end Database

end ClusterConsole
