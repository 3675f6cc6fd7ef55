/-
Reading the tokens that follow a command path as options and positional arguments. A token is a
flag when it begins with `-` and is longer than that; `--` ends the flags. `Use` lists what the
tokens were used for, in order, and `ParsedOptions` is what a command gets to see of it.
-/
import ClusterConsole.Options.Set

namespace ClusterConsole.Options

/-! ## Tokens -/

/-- How a token reads before the flags have ended. -/
inductive Lexeme
  /-- `--`, after which every token is a positional argument. -/
  | terminator
  /-- `--name` or `--name=value`. -/
  | long (name : Text) (value : Option Text)
  /-- `-xyz`: short names, the last of which may have a value attached. -/
  | cluster (flags : Text)
  /-- A token that is no flag. -/
  | plain

/-- The text before the first `=`, and the text after it if there is one. -/
def cutAtEquals : Text → Text × Option Text
  | [] => ([], none)
  | '=' :: cs => ([], some cs)
  | c :: cs => ((c :: (cutAtEquals cs).1), (cutAtEquals cs).2)

/-- How a token reads. -/
def lexeme : Text → Lexeme
  | ['-', '-'] => .terminator
  | '-' :: '-' :: body => .long (cutAtEquals body).1 (cutAtEquals body).2
  | '-' :: c :: cs => .cluster (c :: cs)
  | _ => .plain

/-! ## Uses -/

/-- What tokens are used for: an occurrence of an option with its values, or a positional
argument. -/
inductive Use
  | occurrence (option : CliOption) (values : List Text)
  | positional (argument : Text)
deriving DecidableEq

/-- An option that still takes values, with those it has. -/
abbrev Waiting := Option (CliOption × List Text)

/-- The occurrence with these values, if the option accepts their number. -/
def occurrence (o : CliOption) (values : List Text) : Except OptionError Use :=
  if o.accepts values.length then .ok (.occurrence o values)
  else .error (.missingArgument o.display)

/-- Ends the values of the waiting option. -/
def Waiting.close : Waiting → Except OptionError (List Use)
  | none => .ok []
  | some (o, values) => (occurrence o values).map ([·])

/-- An occurrence of an option without arguments, which may be given only once. -/
def flagUse (given : List Char) (o : CliOption) : Except OptionError Use :=
  if given.contains o.short then .error (.duplicate o.display) else .ok (.occurrence o [])

/-- Where the scan of the tokens stands: the option that waits for values, and the options
without arguments that were given. -/
structure State where
  waiting : Waiting
  given : List Char

/-- The value attached to a short name; an equals sign in front is not part of it. -/
def attached : Text → Text
  | '=' :: v => v
  | v => v

/-- Reads the short names of one token. -/
def clusterUses (options : List CliOption) : State → Text → Except OptionError (List Use × State)
  | s, [] => .ok ([], s)
  | s, c :: cs =>
    match options.find? (·.short == c) with
    | none => .error (.unrecognized ['-', c])
    | some o => do
      if o.args = 0 then
        let closed ← s.waiting.close
        let use ← flagUse s.given o
        let (uses, s') ← clusterUses options ⟨none, c :: s.given⟩ cs
        return (closed ++ use :: uses, s')
      else
        let closed ← s.waiting.close
        -- what is left of the token is the value; the value of a last name is still to come
        match cs with
        | [] => return (closed, ⟨some (o, []), s.given⟩)
        | _ =>
          let use ← occurrence o [attached cs]
          return (closed ++ [use], ⟨none, s.given⟩)

/-- Reads a token that begins with two hyphens. -/
def longUses (options : List CliOption) (s : State) (name : Text) (value : Option Text) :
    Except OptionError (List Use × State) :=
  match options.find? (·.long == some name) with
  | none => .error (.unrecognized ("--" ++ name))
  | some o =>
    match o.args, value with
    | 0, some _ => .error .unexpectedValue
    | 0, none => do
      let closed ← s.waiting.close
      let use ← flagUse s.given o
      return (closed ++ [use], ⟨none, o.short :: s.given⟩)
    | _ + 1, some v => do
      let closed ← s.waiting.close
      let use ← occurrence o [v]
      return (closed ++ [use], ⟨none, s.given⟩)
    | _ + 1, none => do
      let closed ← s.waiting.close
      return (closed, ⟨some (o, []), s.given⟩)

/-- Reads a token that is no flag: a value if an option waits for one. -/
def plainUses (s : State) (token : Text) : List Use × State :=
  match s.waiting with
  | none => ([.positional token], s)
  | some (o, values) =>
    let values := values ++ [token]
    if values.length < o.args then ([], ⟨some (o, values), s.given⟩)
    else ([.occurrence o values], ⟨none, s.given⟩)

/-- What the tokens are used for, from a given state on. -/
def usesFrom (options : List CliOption) : State → List Text → Except OptionError (List Use)
  | s, [] => s.waiting.close
  | s, token :: tokens =>
    match lexeme token with
    | .terminator => return (← s.waiting.close) ++ tokens.map .positional
    | .long name value => do
      let (uses, s') ← longUses options s name value
      return uses ++ (← usesFrom options s' tokens)
    | .cluster flags => do
      let (uses, s') ← clusterUses options s flags
      return uses ++ (← usesFrom options s' tokens)
    | .plain => do
      let (uses, s') := plainUses s token
      return uses ++ (← usesFrom options s' tokens)

/-- What the tokens are used for. -/
def uses (options : List CliOption) (tokens : List Text) : Except OptionError (List Use) :=
  usesFrom options ⟨none, []⟩ tokens

end Options

/-! ## Results -/

open Options

/-- The options that were given, each with all its values, in ascending order of their short
names, and the positional arguments in order. -/
structure ParsedOptions where
  given : List (Char × List Text)
  args : List Text
deriving DecidableEq, Repr

namespace ParsedOptions

/-- The values of the option named `short`, if it was given. -/
def lookup (p : ParsedOptions) (short : Char) : Option (List Text) :=
  (Ascending.find? Prod.fst short p.given).map Prod.snd

/-- Whether the option was given. -/
def has (p : ParsedOptions) (short : Char) : Bool := (p.lookup short).isSome

/-- All values of the option. -/
def values (p : ParsedOptions) (short : Char) : List Text := (p.lookup short).getD []

/-- The first value of the option. -/
def value (p : ParsedOptions) (short : Char) : Option Text := (p.values short).head?

end ParsedOptions

namespace Options

/-- The values of all occurrences of `o`, or nothing if it does not occur. -/
def gather (o : CliOption) (uses : List Use) : Option (List Text) :=
  let found := uses.filterMap fun
    | .occurrence o' values => if o'.short == o.short then some values else none
    | .positional _ => none
  if found.isEmpty then none else some found.flatten

/-- The positional arguments. -/
def positionals (uses : List Use) : List Text :=
  uses.filterMap fun
    | .occurrence _ _ => none
    | .positional a => some a

/-- What a command sees of the uses. -/
def collect (options : List CliOption) (uses : List Use) : ParsedOptions :=
  ⟨options.filterMap fun o => (gather o uses).map fun values => (o.short, values), positionals uses⟩

/-- The required options that were not given. -/
def missing (options : List CliOption) (p : ParsedOptions) : List Char :=
  (options.filter fun o => o.required && !p.has o.short).map CliOption.short

/-- Reads tokens against the declared options; required ones are asked for at the very end. -/
def parseWith (options : List CliOption) (tokens : List Text) :
    Except OptionError ParsedOptions := do
  let p := collect options (← uses options tokens)
  match missing options p with
  | [] => return p
  | shorts => throw (.missingRequired shorts)

/-- Reads tokens for a command that declares the given options, or none at all. -/
def parse (options : Option OptionSet) (tokens : List Text) : Except OptionError ParsedOptions :=
  parseWith ((options.map OptionSet.options).getD []) tokens

end Options

/-- Reads tokens against the set. -/
def OptionSet.parse (s : OptionSet) (tokens : List Text) : Except OptionError ParsedOptions :=
  Options.parse (some s) tokens

end ClusterConsole
