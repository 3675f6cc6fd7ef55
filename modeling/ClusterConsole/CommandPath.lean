/-
Command paths such as `cluster list`: a path is a list of segments that is not empty and has no
empty segment, both of which are part of the type. A shorter path of abbreviated segments selects a
longer one, segment by segment. Paths come in lexicographic order.
-/
import ClusterConsole.Text.Blank

namespace ClusterConsole

/-- Why segments make no path. -/
inductive PathError
  | empty
  | emptySegment (index : Nat)
deriving DecidableEq, Repr

/-- What is said of a path error. -/
def PathError.message : PathError → Text
  | .empty => "command path is empty"
  | .emptySegment i => "command path segment " ++ Text.ofNat i ++ " is empty"

/-- The name of a command: its segments, from the general to the particular. -/
structure CommandPath where
  segments : List Text
  ne_nil : segments ≠ []
  filled : ∀ s ∈ segments, s ≠ []
deriving DecidableEq

namespace CommandPath

/-- The path with the given segments. -/
def ofSegments (segments : List Text) : Except PathError CommandPath :=
  if hne : segments = [] then .error .empty
  else match h : segments.findIdx? List.isEmpty with
    | some i => .error (.emptySegment i)
    | none => .ok ⟨segments, hne, fun s hs he => by
        have := List.findIdx?_eq_none_iff.mp h s hs
        simp [he] at this⟩

/-- Whether a token begins the options of a command. -/
def beginsOptions (token : Text) : Bool := token.head? == some '-'

/-- The tokens that name the command: those before the first one that begins with `-`. -/
def leading (tokens : List Text) : List Text := tokens.takeWhile (!beginsOptions ·)

/-- The path that the leading tokens of a line spell. -/
def ofTokens (tokens : List Text) : Except PathError CommandPath := ofSegments (leading tokens)

/-- The path that the leading words of a text spell. -/
def parse (t : Text) : Except PathError CommandPath := ofSegments (leading t.words)

/-- The number of segments. -/
def length (p : CommandPath) : Nat := p.segments.length

/-- The segments with a space between neighbours. -/
def text (p : CommandPath) : Text := Text.join " " p.segments

/-- Whether each segment of `query` is a beginning of the segment of `segments` at its place. -/
def abbreviates : (query segments : List Text) → Bool
  | [], _ => true
  | _ :: _, [] => false
  | q :: qs, s :: ss => q.isPrefixOf s && abbreviates qs ss

/-- Whether `query` selects the path: it has no more segments, and each of its segments is a
beginning of the segment at the same place. -/
def selectedBy (p query : CommandPath) : Bool := abbreviates query.segments p.segments

instance : Ord CommandPath := ⟨compareOn CommandPath.segments⟩

end CommandPath

end ClusterConsole
