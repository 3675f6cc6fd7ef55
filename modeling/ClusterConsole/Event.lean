/-
What reaches the operator: pieces of output, of which the last one of a response says that it is
the last, and reports of lines that could not be run.
-/
import ClusterConsole.Line

namespace ClusterConsole

/-- A piece of output. -/
structure Output where
  text : Option Text
  /-- More output of the same response follows. -/
  hasMore : Bool
  /-- The session ends here. -/
  terminate : Bool
deriving DecidableEq

/-- What the console is told. -/
inductive Event
  | output (o : Output)
  /-- No command has the name that the line gives. -/
  | unrecognized (line : TokenizedLine)
  /-- The line cannot be read, at the given offset if it has one, or has unacceptable options. -/
  | invalid (line : Line) (message : Text) (offset : Option Nat)
deriving DecidableEq

namespace Event

/-- A line of output with more to follow. -/
def line (text : Text) : Event := .output ⟨some text, true, false⟩

/-- The last line of a response. -/
def last (text : Text) : Event := .output ⟨some text, false, false⟩

/-- The end of a response without a text of its own. -/
def done : Event := .output ⟨none, false, false⟩

/-- The end of the session, after a text if there is one. -/
def terminate (text : Option Text) : Event := .output ⟨text, false, true⟩

/-- What is said of an unrecognized line. -/
def unrecognizedMessage (line : TokenizedLine) : Text := "Unrecognized command: " ++ line.line.text

/-- The report of a line that could not be cut into tokens. -/
def lexical (line : Line) (e : Token.LexicalError) : Event :=
  .invalid line e.fault.message (some e.offset)

end Event

end ClusterConsole
