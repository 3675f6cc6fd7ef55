/-
What can be wrong with a JSON document: its text may not be JSON, or its value may not have the
form that is asked for. Faults of the text, and of a value that is judged while it is being read,
come with a place, counted in lines and in bytes of the line.
-/
import ClusterConsole.Json
import ClusterConsole.Json.Writer
import ClusterConsole.Text.Quoted

namespace ClusterConsole.Json

/-! ## Faults of the text -/

/-- Why a text is not JSON. -/
inductive SyntaxFault
  | endInList
  | endInObject
  | endInString
  | endInValue
  | expectedColon
  | expectedListCommaOrEnd
  | expectedObjectCommaOrEnd
  | expectedIdent
  | expectedValue
  | invalidEscape
  | invalidNumber
  | numberOutOfRange
  | invalidCodePoint
  | controlCharacter
  | keyMustBeString
  | loneSurrogate
  | trailingComma
  | trailingCharacters
  | endOfHexEscape
  | recursionLimit
deriving DecidableEq, Repr

/-- What is said of a fault of the text. -/
def SyntaxFault.message : SyntaxFault → Text
  | .endInList => "EOF while parsing a list"
  | .endInObject => "EOF while parsing an object"
  | .endInString => "EOF while parsing a string"
  | .endInValue => "EOF while parsing a value"
  | .expectedColon => "expected `:`"
  | .expectedListCommaOrEnd => "expected `,` or `]`"
  | .expectedObjectCommaOrEnd => "expected `,` or `\x7d`"
  | .expectedIdent => "expected ident"
  | .expectedValue => "expected value"
  | .invalidEscape => "invalid escape"
  | .invalidNumber => "invalid number"
  | .numberOutOfRange => "number out of range"
  | .invalidCodePoint => "invalid unicode code point"
  | .controlCharacter => "control character (\\u0000-\\u001F) found while parsing a string"
  | .keyMustBeString => "key must be a string"
  | .loneSurrogate => "lone leading surrogate in hex escape"
  | .trailingComma => "trailing comma"
  | .trailingCharacters => "trailing characters"
  | .endOfHexEscape => "unexpected end of hex escape"
  | .recursionLimit => "recursion limit exceeded"

/-! ## Faults of the form -/

/-- What is found in place of what is asked for. -/
inductive Found
  | null
  | bool (b : Bool)
  | number (n : Number)
  | text (t : Text)
  | list
  | map
deriving DecidableEq, Repr

/-- The kind of a value, with the value itself where it is simple. -/
def found : Json → Found
  | .null => .null
  | .bool b => .bool b
  | .number n => .number n
  | .text t => .text t
  | .array _ => .list
  | .object _ => .map

/-- The name of what is found. -/
def Found.message : Found → Text
  | .null => "null"
  | .bool b => "boolean `" ++ (if b then "true" else "false" : Text) ++ "`"
  | .number (.float x) => "floating point `" ++ Number.write (.float x) ++ "`"
  | .number n => "integer `" ++ n.write ++ "`"
  | .text t => "string " ++ t.quoted
  | .list => "sequence"
  | .map => "map"

/-- Why a value does not have the form that is asked for. -/
inductive Mismatch
  | wrongType (f : Found) (expected : Text)
  | wrongValue (f : Found) (expected : Text)
  | wrongLength (n : Nat) (expected : Text)
  | missingField (name : Text)
  | duplicateField (name : Text)
  | unknownVariant (name : Text) (known : List Text)
deriving DecidableEq, Repr

/-- A name as messages show it. -/
def ticked (t : Text) : Text := '\x60' :: t ++ ['\x60']

/-- The names that are accepted in place of an unknown one. -/
def alternatives : List Text → Text
  | [a] => "expected " ++ ticked a
  | [a, b] => "expected " ++ ticked a ++ " or " ++ ticked b
  | known => "expected one of " ++ Text.join ", " (known.map ticked)

/-- What is said of a mismatch. -/
def Mismatch.message : Mismatch → Text
  | .wrongType f expected => "invalid type: " ++ f.message ++ ", expected " ++ expected
  | .wrongValue f expected => "invalid value: " ++ f.message ++ ", expected " ++ expected
  | .wrongLength n expected => "invalid length " ++ Text.ofNat n ++ ", expected " ++ expected
  | .missingField name => "missing field " ++ ticked name
  | .duplicateField name => "duplicate field " ++ ticked name
  | .unknownVariant name known => "unknown variant " ++ ticked name ++ ", " ++ alternatives known

/-! ## Errors -/

/-- What is wrong with a document. -/
inductive Cause
  | malformed (f : SyntaxFault)
  | mismatch (m : Mismatch)
deriving DecidableEq, Repr

/-- What is said of a cause. -/
def Cause.message : Cause → Text
  | .malformed f => f.message
  | .mismatch m => m.message

/-- A place in a document: the line, from 1, and how many bytes of it are read. -/
structure Position where
  line : Nat
  column : Nat
deriving DecidableEq, Repr

/-- Why a document could not be read, and where that showed. -/
structure Error where
  cause : Cause
  position : Option Position
deriving DecidableEq, Repr

/-- What is said of an error. -/
def Error.message (e : Error) : Text :=
  match e.position with
  | none => e.cause.message
  | some p =>
    e.cause.message ++ " at line " ++ Text.ofNat p.line ++ " column " ++ Text.ofNat p.column

end ClusterConsole.Json
