/-
The options a command declares: a short name, perhaps a long one, how many arguments follow and
whether they may be left out, and whether the option has to be given. What a definition must obey
is part of the type of options.
-/
import ClusterConsole.Text.Quoted

namespace ClusterConsole

/-- What is wrong with option definitions, or with the tokens given for them. -/
inductive OptionError
  | invalidShort (short : Char)
  | invalidLong (long : Text)
  | optionalWithoutArgs (short : Char)
  | conflict (name : Text)
  | emptySet
  | missingRequired (shorts : List Char)
  | unrecognized (flag : Text)
  | missingArgument (option : Text)
  | duplicate (option : Text)
  | unexpectedValue
deriving DecidableEq, Repr

/-- What is said of an option error. -/
def OptionError.message : OptionError → Text
  | .invalidShort c => "invalid short option name: " ++ Text.quotedSingle c
  | .invalidLong l => "invalid long option name: " ++ l.quoted
  | .optionalWithoutArgs c =>
    "option -" ++ c :: " takes an optional argument but declares no arguments"
  | .conflict name => "conflicting option definitions for " ++ name
  | .emptySet => "option set is empty"
  | .missingRequired [c] => "Missing required option: " ++ [c]
  | .missingRequired cs => "Missing required options: " ++ Text.join ", " (cs.map fun c => [c])
  | .unrecognized flag => "Unrecognized option: " ++ flag
  | .missingArgument option => "Missing argument for option: " ++ option
  | .duplicate option => "Option specified more than once: " ++ option
  | .unexpectedValue => "unexpected value for an argument found"

/-- Whether `c` is an ASCII letter or digit. -/
def isShortName (c : Char) : Bool := c.isAlphanum

/-- Whether `l` is made of ASCII letters, digits and inner or final hyphens, and is not empty. -/
def isLongName (l : Text) : Bool :=
  !l.isEmpty && l.head? != some '-' && l.all fun c => c.isAlphanum || c == '-'

/-- An option that a command accepts. -/
structure CliOption where
  short : Char
  long : Option Text
  /-- What an argument is called in usage texts. -/
  argName : Option Text
  /-- How many arguments one occurrence takes. -/
  args : Nat
  required : Bool
  /-- Whether an occurrence may take fewer arguments. -/
  optionalArg : Bool
  description : Text
  short_ok : isShortName short = true
  long_ok : long.all isLongName = true
  args_ok : optionalArg = true → args ≠ 0
deriving DecidableEq

namespace CliOption

/-- An option that takes one argument may do without it or not. -/
theorem one_arg_ok (optionalArg : Bool) : optionalArg = true → 1 ≠ 0 := fun _ => Nat.one_ne_zero

/-- The option with the given fields, if they are acceptable. -/
def define (short : Char) (long argName : Option Text) (args : Nat) (required optionalArg : Bool)
    (description : Text) : Except OptionError CliOption :=
  if hs : isShortName short = true then
    if hl : long.all isLongName = true then
      if ha : optionalArg = true → args ≠ 0 then
        .ok ⟨short, long, argName, args, required, optionalArg, description, hs, hl, ha⟩
      else .error (.optionalWithoutArgs short)
    else .error (.invalidLong (long.getD []))
  else .error (.invalidShort short)

/-- An option without arguments. -/
def flag (short : Char) (long description : Text) : Except OptionError CliOption :=
  define short (some long) none 0 false false description

/-- An option with exactly one argument. -/
def withArg (short : Char) (long argName : Text) (required : Bool) (description : Text) :
    Except OptionError CliOption :=
  define short (some long) (some argName) 1 required false description

/-- What an argument of the option is called. -/
def placeholder (o : CliOption) : Text := o.argName.getD "ARG"

/-- Whether one occurrence may have `n` values. -/
def accepts (o : CliOption) (n : Nat) : Bool := n == o.args || (o.optionalArg && n ≤ o.args)

/-- How help texts show the option, such as `-t, --type <TYPE>` or `-g, --get [IDS]`. -/
def usage (o : CliOption) : Text :=
  let name : Text := match o.long with
    | some l => '-' :: o.short :: ", --" ++ l
    | none => ['-', o.short]
  let arg : Text :=
    if o.optionalArg then " [" ++ o.placeholder ++ "]" else " <" ++ o.placeholder ++ ">"
  name ++ (List.replicate o.args arg).flatten

/-- How error messages name the option: by its long name if it has one, with its arguments. -/
def display (o : CliOption) : Text :=
  let name : Text := match o.long with
    | some l => "--" ++ l
    | none => ['-', o.short]
  let arg : Text := "<" ++ o.placeholder ++ ">"
  if o.args = 0 then name
  else if o.optionalArg then
    name ++ " [" ++ arg ++ (if 1 < o.args then ("..." : Text) else []) ++ "]"
  else name ++ ' ' :: Text.join " " (List.replicate o.args arg)

/-- Options come in the order of their short names; those that share one, in the order of the
remaining fields. -/
instance : Ord CliOption :=
  ⟨compareLex (compareOn short) (compareLex (compareOn long) (compareLex (compareOn argName)
    (compareLex (compareOn args) (compareLex (compareOn required)
      (compareLex (compareOn optionalArg) (compareOn description))))))⟩

end CliOption

end ClusterConsole
