/-
Starting the registry: every handler is asked for its registrations, and each conduct of a handler
short of keeping the request leads to exactly one response, if only an empty one.
-/
import ClusterConsole.Registry

namespace ClusterConsole

/-- What a handler makes of the request for its registrations. -/
inductive Conduct
  | answers (registrations : List Registration)
  /-- It cannot state its registrations. -/
  | fails
  /-- It lets the request go without an answer. -/
  | drops
  /-- It has stopped before the request reaches it. -/
  | gone
  /-- It holds on to the request and never answers. -/
  | keeps
deriving DecidableEq

/-- The response that reaches the registry. -/
def Conduct.response? : Conduct → Option Response
  | .answers rs => some (Response.ofList rs)
  | .fails | .drops | .gone => some ⟨Catalog.empty, none⟩
  | .keeps => none

namespace Registry

variable {ρ : Type}

/-- The registry that has asked the handlers and has heard of none. -/
def asking (barrier : Bool) (conducts : List Conduct) : Registry ρ :=
  (new barrier).expect conducts.length

/-- The registry after every handler that answers has answered, in the order of the list. -/
def started (barrier : Bool) (conducts : List Conduct) : Registry ρ :=
  ((asking barrier conducts).handleAll (conducts.filterMap fun c => c.response?.map .registered)).1

end Registry

end ClusterConsole
