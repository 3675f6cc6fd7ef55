/-
What the commands show that only look: the help text with every registered command and its options,
the members of the cluster, and the configuration as a whole or a single setting of it. Every
listing ends with an event after which nothing more follows.
-/
import ClusterConsole.Config.Document
import ClusterConsole.Event
import ClusterConsole.Registration

namespace ClusterConsole

/-- Lines of a response, and its end. -/
def Event.listing (lines : List Text) : List Event := lines.map Event.line ++ [Event.done]

/-! ## Help -/

namespace Help

/-- The column at which the descriptions of commands begin, counted from the path. -/
def pathWidth : Nat := 16

/-- The column at which the descriptions of options begin, counted from the usage. -/
def usageWidth : Nat := 24

/-- The line about an option. -/
def optionLine (o : CliOption) : Text :=
  let mark : Text := if o.required then " (required)" else []
  "      " ++ o.usage.padRight usageWidth ++ " " ++ o.description ++ mark

/-- The line about a command. -/
def commandLine (r : Registration) : Text :=
  match r.description with
  | some d => "  " ++ r.path.text.padRight pathWidth ++ " " ++ d
  | none => "  " ++ r.path.text

/-- The lines about a command and its options. -/
def registrationLines (r : Registration) : List Text :=
  commandLine r :: ((r.options.map OptionSet.options).getD []).map optionLine

/-- The lines about all commands of a catalog, in its order. -/
def lines (c : Catalog) : List Text := c.entries.flatMap registrationLines

/-- The help text for a catalog. -/
def events (c : Catalog) : List Event := Event.listing ("Available commands:" :: lines c)

end Help

/-! ## Cluster members -/

namespace Cluster

/-- The members of a cluster, one a line. -/
def events (members : List ClusterMember) : List Event :=
  match members with
  | [] => [Event.last "No cluster members known."]
  | members => Event.listing (members.map ClusterMember.display)

end Cluster

/-! ## Configuration -/

namespace Config

/-- The document of the configuration, or of the setting named `key`. -/
def events (c : Config) (key : Option Text) : List Event :=
  match key with
  | none => Event.listing c.document.lines
  | some key =>
    match c.settingDocument key with
    | some document => Event.listing document.lines
    | none => [Event.last ("No such configuration key: " ++ key)]

end Config

end ClusterConsole
