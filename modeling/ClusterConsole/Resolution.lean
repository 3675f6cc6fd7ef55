/-
What becomes of a line once its words are known. The path that it spells is looked up: no match
makes the line unrecognized, one match makes it a command if its options can be read, and several
matches send it back as a request for help. `Catalog.settle` follows a line until it is not sent
back any more.
-/
import ClusterConsole.Command
import ClusterConsole.Event
import ClusterConsole.Registry

namespace ClusterConsole

/-- What is done with a line in the end: a handler runs a command, or the operator is told. -/
inductive Dispatch
  | execute (command : Command)
  | inform (event : Event)
deriving DecidableEq

/-- What becomes of a line when its matches are known. -/
inductive Resolution
  | dispatch (d : Dispatch)
  /-- The line is submitted again in another form. -/
  | resubmit (line : Line)
deriving DecidableEq

/-! ## One line -/

/-- What is put before an ambiguous line. -/
def helpWord : Text := "help "

/-- The request for help about an ambiguous line. -/
def Line.helpRequest (l : Line) : Line := Line.ofRaw (helpWord ++ l.text)

/-- The question that a line puts to the registry; a line without a path is unrecognized. -/
def TokenizedLine.lookup (l : TokenizedLine) : Except Event Lookup :=
  (Lookup.ofLine l).mapError fun _ => .unrecognized l

/-- What a line and the only registration that its path selects amount to. -/
def Dispatch.bind (registration : Registration) (l : TokenizedLine) : Dispatch :=
  match Command.ofLine registration l with
  | .error e => .inform (.invalid l.line e.message none)
  | .ok command =>
    match command.parseOptions with
    | .error e => .inform (.invalid l.line e.message none)
    | .ok _ => .execute command

/-- What becomes of the line that a response answers; nothing if it answers none. -/
def Response.resolve (r : Response) : Option Resolution :=
  r.origin.map fun l =>
    match r.catalog.entries with
    | [] => .dispatch (.inform (.unrecognized l))
    | [registration] => .dispatch (Dispatch.bind registration l)
    | _ :: _ :: _ => .resubmit l.line.helpRequest

/-! ## Following a line -/

namespace Catalog

/-- What becomes of a line when it is looked up once. -/
def attempt (c : Catalog) (line : Line) : Resolution :=
  match line.tokenize with
  | .error e => .dispatch (.inform (.lexical line e))
  | .ok tokenized =>
    match tokenized.lookup with
    | .error event => .dispatch (.inform event)
    | .ok l =>
      (Response.resolve ⟨c.select l.paths, l.origin⟩).getD
        (.dispatch (.inform (.unrecognized tokenized)))

/-- The lines submitted on the way, at most `n` of them, and what becomes of the last one. -/
def follow (c : Catalog) : (n : Nat) → Line → List Line × Resolution
  | 0, line => ([], c.attempt line)
  | n + 1, line =>
    match c.attempt line with
    | .resubmit next =>
      let (lines, resolution) := c.follow n next
      (next :: lines, resolution)
    | resolution => ([], resolution)

/-- What a line finally amounts to. Every request for help has one segment more than the line it
is about, so there are no more of them than the longest registered path has segments. -/
def settle (c : Catalog) (line : Line) : Dispatch :=
  match (c.follow c.longest line).2 with
  | .dispatch d => d
  | .resubmit next => .inform (.unrecognized ⟨next, []⟩)

end Catalog

end ClusterConsole
