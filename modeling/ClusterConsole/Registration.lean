/-
Registrations bind a command path to the handler that implements it, with the options and the
description of the command. A catalog holds at most one registration per path, in path order, and
keeps the later of two; `mem_of_mem_select` says that a lookup answers with entries of the catalog.
-/
import ClusterConsole.Ascending
import ClusterConsole.CommandPath
import ClusterConsole.Line
import ClusterConsole.Options.Set

namespace ClusterConsole

/-- A handler as others refer to it: its name, and its place among the running handlers. -/
structure HandlerRef where
  name : Text
  place : Nat
deriving DecidableEq

/-- A command path with the handler that implements it. -/
structure Registration where
  handler : HandlerRef
  path : CommandPath
  options : Option OptionSet := none
  description : Option Text := none
deriving DecidableEq

/-! ## Catalogs -/

instance : Std.TransOrd CommandPath :=
  inferInstanceAs (Std.TransCmp (compareOn CommandPath.segments))

/-- Registrations in ascending order of their paths. -/
structure Catalog where
  entries : List Registration
  ascends : Ascending.Ascends Registration.path entries
deriving DecidableEq

namespace Catalog

/-- The catalog without entries. -/
def empty : Catalog := ⟨[], List.Pairwise.nil⟩

/-- The catalog with `r` for its path. -/
def add (c : Catalog) (r : Registration) : Catalog :=
  ⟨Ascending.insert Registration.path r c.entries, Ascending.pairwise_insert _ _ c.ascends⟩

/-- The catalog after adding registrations from left to right. -/
def addAll (c : Catalog) (rs : List Registration) : Catalog := rs.foldl add c

/-- The catalog of the given registrations; of several for one path, the last. -/
def ofList (rs : List Registration) : Catalog := empty.addAll rs

/-- The number of entries. -/
def size (c : Catalog) : Nat := c.entries.length

/-- The entries whose path one of the queries selects. -/
def select (c : Catalog) (queries : List CommandPath) : Catalog :=
  ⟨c.entries.filter fun r => queries.any r.path.selectedBy, c.ascends.filter _⟩

theorem mem_of_mem_select {c : Catalog} {queries : List CommandPath} {r : Registration}
    (h : r ∈ (c.select queries).entries) : r ∈ c.entries := (List.mem_filter.mp h).1

/-- The number of segments of the longest path. -/
def longest (c : Catalog) : Nat := (c.entries.map fun r => r.path.length).foldl max 0

end Catalog

/-! ## Lookups and responses -/

/-- A question for the registrations that one of several paths selects. -/
structure Lookup where
  paths : List CommandPath
  ne_nil : paths ≠ []
  /-- The line that the question is asked for. -/
  origin : Option TokenizedLine := none
deriving DecidableEq

namespace Lookup

/-- The lookup of the given paths. -/
def ofPaths (paths : List CommandPath) : Except PathError Lookup :=
  if h : paths = [] then .error .empty else .ok ⟨paths, h, none⟩

/-- The lookup of the path that the leading tokens of a line spell. -/
def ofLine (line : TokenizedLine) : Except PathError Lookup :=
  (CommandPath.ofTokens line.tokens).map fun p => ⟨[p], by simp, some line⟩

end Lookup

/-- A catalog of registrations, with the line that it answers if it answers one. -/
structure Response where
  catalog : Catalog
  origin : Option TokenizedLine := none
deriving DecidableEq

/-- The response that carries the given registrations. -/
def Response.ofList (rs : List Registration) : Response := ⟨Catalog.ofList rs, none⟩

end ClusterConsole
