/-
Commands: a line bound to the registration that its path resolved to. The path is kept as typed,
so abbreviated segments stay abbreviated; the tokens after it are options and arguments.
-/
import ClusterConsole.Options.Parse
import ClusterConsole.Registration

namespace ClusterConsole

/-- A line with the path that it spells and the registration that the path stands for. -/
structure Command where
  path : CommandPath
  registration : Registration
  line : TokenizedLine
deriving DecidableEq

namespace Command

/-- The command that a line gives for a registration. -/
def ofLine (registration : Registration) (line : TokenizedLine) : Except PathError Command :=
  (CommandPath.ofTokens line.tokens).map fun p => ⟨p, registration, line⟩

/-- The tokens after the path. -/
def optionTokens (c : Command) : List Text := c.line.tokens.drop c.path.length

/-- The options and arguments, read against the options that the registration declares. -/
def parseOptions (c : Command) : Except OptionError ParsedOptions :=
  Options.parse c.registration.options c.optionTokens

/-- Commands come in the order of their typed paths, then of the registered ones, then of their
lines. -/
instance : Ord Command :=
  ⟨compareLex (compareOn path)
    (compareLex (compareOn fun c => c.registration.path) (compareOn line))⟩

end Command

end ClusterConsole
