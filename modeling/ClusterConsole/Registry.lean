/-
The registry owns the catalog of all commands. Queries are answered from the catalog; while
handlers that were asked for their registrations have not all answered, and the barrier is on,
queries are held in the order of arrival and answered together when the last handler reports.
-/
import ClusterConsole.Registration

namespace ClusterConsole

/-- What the registry can be asked: the registrations that a lookup selects, or all of them. -/
inductive Query
  | lookup (l : Lookup)
  | list
deriving DecidableEq

/-- What reaches the registry; answers to a query go to `replyTo`. -/
inductive RegistryMessage (ρ : Type)
  | registered (response : Response)
  | query (q : Query) (replyTo : ρ)

/-- Lengths are counted in 64 bits. -/
scoped instance coeLength : Coe Nat UInt64 := ⟨UInt64.ofNat⟩

/-- The state of the registry, for reply addresses of type `ρ`. -/
structure Registry (ρ : Type) where
  catalog : Catalog
  /-- How many handlers have yet to answer. -/
  awaiting : UInt64
  /-- Whether queries wait for all handlers. -/
  barrier : Bool
  /-- The queries that wait, the earliest first. -/
  held : List (Query × ρ)
deriving DecidableEq

namespace Registry

variable {ρ : Type}

/-- A registry without registrations. -/
def new (barrier : Bool) : Registry ρ := ⟨Catalog.empty, 0, barrier, []⟩

/-- Records that `count` more handlers were asked for their registrations. The sum is kept in 64 bits,
and what goes beyond them is lost. -/
def expect (r : Registry ρ) (count : UInt64) : Registry ρ :=
  { r with awaiting := r.awaiting + count }

/-- Whether queries are answered at once. -/
def isReady (r : Registry ρ) : Bool := !r.barrier || r.awaiting == 0

/-- Adds the registrations of a response; the later one for a path stays. -/
def register (r : Registry ρ) (response : Response) : Registry ρ :=
  { r with catalog := r.catalog.addAll response.catalog.entries }

/-- The answer to a query from the catalog as it is. -/
def answer (r : Registry ρ) : Query → Response
  | .lookup l => ⟨r.catalog.select l.paths, l.origin⟩
  | .list => ⟨r.catalog, none⟩

/-- One handler fewer is awaited, unless none is. -/
def countDown (r : Registry ρ) : Registry ρ :=
  { r with awaiting := if r.awaiting = 0 then 0 else r.awaiting - 1 }

/-- Answers the held queries, in order. -/
def release (r : Registry ρ) : Registry ρ × List (ρ × Response) :=
  ({ r with held := [] }, r.held.map fun q => (q.2, r.answer q.1))

/-- Takes one message in; the answers that it sets free come in order, with their addresses. -/
def handle (r : Registry ρ) : RegistryMessage ρ → Registry ρ × List (ρ × Response)
  | .registered response =>
    let r := r.register response
    let r' := r.countDown
    if !r.isReady && r'.isReady then r'.release else (r', [])
  | .query q replyTo =>
    if r.isReady then (r, [(replyTo, r.answer q)])
    else ({ r with held := r.held ++ [(q, replyTo)] }, [])

/-- Takes messages in one after another. -/
def handleAll (r : Registry ρ) : List (RegistryMessage ρ) → Registry ρ × List (ρ × Response)
  | [] => (r, [])
  | m :: ms =>
    let (r, answers) := r.handle m
    let (r, more) := r.handleAll ms
    (r, answers ++ more)

end Registry

end ClusterConsole
