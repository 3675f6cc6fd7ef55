/-
A line of operator input. It is kept trimmed, which is part of the type. Blank lines and comments
ask for nothing; every other line is cut into tokens before a command is looked for.
-/
import ClusterConsole.Text.Blank
import ClusterConsole.Token.Lexer

namespace ClusterConsole

/-- One line of input without the blanks at its ends. -/
structure Line where
  text : Text
  trimmed : text.trim = text
deriving DecidableEq

namespace Line

/-- The line that a raw line of input amounts to. -/
def ofRaw (raw : Text) : Line := ⟨raw.trim, Text.trim_trim raw⟩

/-- Whether nothing is left after trimming. -/
def isEmpty (l : Line) : Bool := l.text.isEmpty

/-- Whether the line begins with `#`. -/
def isComment (l : Line) : Bool := l.text.head? == some '#'

/-- Whether the line asks for anything: it is neither empty nor a comment. -/
def asks (l : Line) : Bool := !(l.isEmpty || l.isComment)

instance : Ord Line := ⟨compareOn Line.text⟩

end Line

/-- A line together with its tokens. -/
structure TokenizedLine where
  line : Line
  tokens : List Text
deriving DecidableEq

namespace TokenizedLine

/-- Lines come in the order of their texts, and of their tokens where the texts agree. -/
instance : Ord TokenizedLine :=
  ⟨compareLex (compareOn TokenizedLine.line) (compareOn TokenizedLine.tokens)⟩

end TokenizedLine

/-- The line with its tokens, or the first place where it cannot be read. -/
def Line.tokenize (l : Line) : Except Token.LexicalError TokenizedLine :=
  (Token.tokenize l.text).map (TokenizedLine.mk l)

end ClusterConsole
