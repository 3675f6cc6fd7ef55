/-
The configuration as a TOML document. Reading leaves missing settings at their defaults and passes
over unknown ones; in place of a table of settings, an array may give their values in order. A
setting of the wrong type makes the document unacceptable.
-/
import ClusterConsole.Ascending
import ClusterConsole.Config
import ClusterConsole.Toml.Reader
import ClusterConsole.Toml.Writer

namespace ClusterConsole

/-! ## What values stand for -/

namespace Toml

/-- The text that a value is. -/
def asText : Toml → Option Text
  | .text t => some t
  | _ => none

/-- The truth value that a value is. -/
def asBool : Toml → Option Bool
  | .boolean b => some b
  | _ => none

/-- The list whose items have a given form. -/
def asList {α : Type} (item : Toml → Option α) : Toml → Option (List α)
  | .array items => items.mapM item
  | _ => none

/-- What a field stands for, or the default if there is no such field. -/
def setting {α : Type} (key : Text) (form : Toml → Option α) (default : α)
    (fields : List (Text × Toml)) : Option α :=
  match field? key fields with
  | some v => form v
  | none => some default

/-- What the item at place `i` stands for, or the default if there is no such item. -/
def settingAt {α : Type} (i : Nat) (form : Toml → Option α) (default : α) (items : List Toml) :
    Option α :=
  match items[i]? with
  | some v => form v
  | none => some default

end Toml

open Toml

namespace ClusterMember

/-- The member that a value stands for; its roles may be left out. -/
def ofToml : Toml → Option ClusterMember
  | .table fields => do
    let address ← (field? "address" fields).bind asText
    let protocol ← (field? "protocol" fields).bind asText
    let status ← (field? "status" fields).bind asText
    return ⟨address, protocol, status, ← setting "roles" (asList asText) [] fields⟩
  | .array items => do
    let address ← items[0]?.bind asText
    let protocol ← items[1]?.bind asText
    let status ← items[2]?.bind asText
    return ⟨address, protocol, status, ← settingAt 3 (asList asText) [] items⟩
  | _ => none

/-- The member as a table. -/
def toToml (m : ClusterMember) : Toml :=
  .table [("address", .text m.address), ("protocol", .text m.protocol), ("status", .text m.status),
    ("roles", .ofTexts m.roles)]

end ClusterMember

namespace Cluster

/-- The cluster that a value stands for. A date counts as a table without known fields. -/
def ofToml : Toml → Option Cluster
  | .table fields => do
    let name ← setting "name" asText [] fields
    return ⟨name, ← setting "members" (asList ClusterMember.ofToml) [] fields⟩
  | .array items => do
    let name ← settingAt 0 asText [] items
    return ⟨name, ← settingAt 1 (asList ClusterMember.ofToml) [] items⟩
  | .dateTime _ => some {}
  | _ => none

/-- The cluster as a table. -/
def toToml (c : Cluster) : Toml :=
  .table [("name", .text c.name), ("members", .array (c.members.map ClusterMember.toToml))]

end Cluster

namespace Config

/-- The configuration that the settings amount to. -/
def ofSettings (fields : List (Text × Toml)) : Option Config := do
  let base : Config := {}
  return {
    prompt := ← setting "prompt" asText base.prompt fields
    banner := ← setting "banner" (fun v => (asText v).map some) base.banner fields
    awaitRegistrations := ← setting "await_registrations" asBool base.awaitRegistrations fields
    logFilter := ← setting "log_filter" asText base.logFilter fields
    handlers := ← setting "handlers" (asList asText) base.handlers fields
    cluster := ← setting "cluster" Cluster.ofToml base.cluster fields }

/-- The configuration that a document stands for, if the console can start from it. -/
def ofDocument (document : Text) : Except ConsoleError Config :=
  match (Toml.read document).bind ofSettings with
  | none => .error .toml
  | some c => c.validate.map fun _ => c

/-- The settings, with a banner only if there is one. -/
def settings (c : Config) : List (Text × Toml) :=
  let first : List (Text × Toml) := [("prompt", .text c.prompt)]
  let banner : List (Text × Toml) := c.banner.toList.map fun b => ("banner", .text b)
  let others : List (Text × Toml) :=
    [("await_registrations", .boolean c.awaitRegistrations), ("log_filter", .text c.logFilter),
      ("handlers", .ofTexts c.handlers), ("cluster", c.cluster.toToml)]
  first ++ banner ++ others

/-- The document that stands for a configuration. -/
def document (c : Config) : Text := Toml.write c.settings

end Config

/-! ## Single settings -/

namespace Toml

mutual

/-- The value with the fields of every table in ascending order of their keys. -/
def sorted : Toml → Toml
  | .array items => .array (sortedItems items)
  | .table fields => .table (Ascending.ofList Prod.fst (sortedFields fields))
  | v => v

/-- Every item with sorted fields. -/
def sortedItems : List Toml → List Toml
  | [] => []
  | v :: vs => sorted v :: sortedItems vs

/-- Every field with its value sorted. -/
def sortedFields : List (Text × Toml) → List (Text × Toml)
  | [] => []
  | (k, v) :: fields => (k, sorted v) :: sortedFields fields

end

end Toml

namespace Config

/-- The document of a single setting, in which inner fields are sorted, if there is such a
setting. -/
def settingDocument (c : Config) (key : Text) : Option Text :=
  (Toml.field? key c.settings).map fun v => Toml.write [(key, v.sorted)]

end Config

end ClusterConsole
