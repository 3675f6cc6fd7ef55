/-
Cutting a line into tokens. Blanks separate tokens; a quoted run is a token by itself, also when
empty; a backslash escapes a quote, a backslash or a blank, and `\xNN` stands for a byte. The
scan reads the line once from the left and collects the bytes of each run, so escaped bytes and
characters join into one piece of UTF-8.
-/
import ClusterConsole.Text.Blank
import ClusterConsole.Text.Utf8

namespace ClusterConsole.Token

open Text

/-! ## Errors -/

/-- What is wrong at some place of a line. -/
inductive Fault
  | missingQuote
  | incompleteEscape
  | illegalEscape (c : Char)
  | invalidHexDigit (c : Char)
deriving DecidableEq, Repr

/-- What is said of a fault. -/
def Fault.message : Fault → Text
  | .missingQuote => "missing terminating quote"
  | .incompleteEscape => "escape sequence not complete"
  | .illegalEscape c => "illegal escape sequence: \\" ++ [c]
  | .invalidHexDigit c => "invalid hex digit: " ++ [c]

/-- A fault and the number of characters before the place where it was found. -/
structure LexicalError where
  fault : Fault
  offset : Nat
deriving DecidableEq, Repr

/-- What is said of a lexical error. -/
def LexicalError.message (e : LexicalError) : Text :=
  e.fault.message ++ " at offset " ++ Text.ofNat e.offset

/-! ## Scanning -/

/-- Whether `c` opens and closes quoted runs. -/
def isQuote (c : Char) : Bool := c == '\'' || c == '"'

/-- Whether a backslash in front of `c` makes it stand for itself. -/
def isEscapable (c : Char) : Bool := isQuote c || c == '\\' || isBlank c

/-- The bytes of the run that is being read, up to where it ends, and the tokens after it. -/
abbrev Scan := Bytes × List Text

namespace Scan

/-- Puts bytes in front of the run that is being read. -/
def push (bs : Bytes) (s : Scan) : Scan := (bs ++ s.1, s.2)

/-- The token of a run that its quotes delimit, also when it is empty. -/
def quoted (s : Scan) : List Text := Utf8.decodeLossy s.1 :: s.2

/-- The token of a run that blanks, quotes or the end delimit; an empty one is none. -/
def bare (s : Scan) : List Text := if s.1 = [] then s.2 else s.quoted

end Scan

/-- Reads on, inside the quotes of kind `q` if there are any, after `n` characters of the line. -/
def scan : Option Char → Nat → Text → Except LexicalError Scan
  | none, _, [] => .ok ([], [])
  | some _, n, [] => .error ⟨.missingQuote, n⟩
  | q, n, '\\' :: rest =>
    match rest with
    | [] => .error ⟨.incompleteEscape, n + 1⟩
    | 'x' :: digits =>
      match digits with
      | [] => .error ⟨.incompleteEscape, n + 2⟩
      | h :: digits =>
        match hexDigit? h, digits with
        | none, _ => .error ⟨.invalidHexDigit h, n + 2⟩
        | some _, [] => .error ⟨.incompleteEscape, n + 3⟩
        | some high, l :: rest =>
          match hexDigit? l with
          | none => .error ⟨.invalidHexDigit l, n + 3⟩
          | some low => (scan q (n + 4) rest).map (Scan.push [UInt8.ofNat (high * 16 + low)])
    | c :: rest =>
      if isEscapable c then (scan q (n + 2) rest).map (Scan.push (String.utf8EncodeChar c))
      else .error ⟨.illegalEscape c, n + 1⟩
  | none, n, c :: rest =>
    if isQuote c then (scan (some c) (n + 1) rest).map fun s => ([], s.quoted)
    else if isBlank c then (scan none (n + 1) rest).map fun s => ([], s.bare)
    else (scan none (n + 1) rest).map (Scan.push (String.utf8EncodeChar c))
  | some q, n, c :: rest =>
    if c = q then (scan none (n + 1) rest).map fun s => ([], s.bare)
    else (scan (some q) (n + 1) rest).map (Scan.push (String.utf8EncodeChar c))

/-- The tokens of a line, or the first place where it cannot be read. -/
def tokenize (t : Text) : Except LexicalError (List Text) := (scan none 0 t).map Scan.bare

end ClusterConsole.Token
