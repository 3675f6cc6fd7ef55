/-
The configuration as a JSON value: an object of settings, or an array of their values in order.
Missing settings keep their defaults, and unknown ones are passed over.
-/
import ClusterConsole.Config
import ClusterConsole.Json.Form

namespace ClusterConsole

open Json

/-- Refuses items beyond those that an array in place of an object may have. -/
def Json.noSurplus : Surplus := fun n items =>
  if items.length ≤ n then .ok ()
  else .error (.wrongLength items.length "fewer elements in array")

/-- The settings of the cluster. -/
def Cluster.form : Form Cluster :=
  let members := asList (ClusterMember.form noSurplus)
  Json.record "struct ClusterConfig" noSurplus
    [("name", checked asText), ("members", checked members)]
    (fun fields => do
      let name ← optional "name" asText [] fields
      return ⟨name, ← optional "members" members [] fields⟩)
    (fun _ items => do
      let name ← itemOr asText 0 [] items
      return ⟨name, ← itemOr members 1 [] items⟩)

namespace Config

/-- The settings of the console. -/
def form : Form Config :=
  let base : Config := {}
  Json.record "struct KeelConfig" noSurplus
    [("prompt", checked asText), ("banner", checked (asOption asText)),
      ("await_registrations", checked asBool), ("log_filter", checked asText),
      ("handlers", checked (asList asText)), ("cluster", checked Cluster.form)]
    (fun fields => do
      return {
        prompt := ← optional "prompt" asText base.prompt fields
        banner := ← optional "banner" (asOption asText) base.banner fields
        awaitRegistrations := ← optional "await_registrations" asBool base.awaitRegistrations fields
        logFilter := ← optional "log_filter" asText base.logFilter fields
        handlers := ← optional "handlers" (asList asText) base.handlers fields
        cluster := ← optional "cluster" Cluster.form base.cluster fields })
    (fun _ items => do
      return {
        prompt := ← itemOr asText 0 base.prompt items
        banner := ← itemOr (asOption asText) 1 base.banner items
        awaitRegistrations := ← itemOr asBool 2 base.awaitRegistrations items
        logFilter := ← itemOr asText 3 base.logFilter items
        handlers := ← itemOr (asList asText) 4 base.handlers items
        cluster := ← itemOr Cluster.form 5 base.cluster items })

/-- The configuration that a JSON value stands for; the fields of objects are judged in ascending
order of their keys. -/
def ofJson (v : Json) : Except ConsoleError Config :=
  (form v.canonical).mapError fun m => .json ⟨.mismatch m, none⟩

end Config

end ClusterConsole
