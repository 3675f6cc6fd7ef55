/-
The errors of the console, by cause. `ConsoleError.message` is the only place where they are put
into words.
-/
import ClusterConsole.Json.Fault
import ClusterConsole.Options.Definition
import ClusterConsole.Text.Utf8

namespace ClusterConsole

/-- What is wrong with a configuration. -/
inductive ConfigFault
  | noHandlers
  | blankHandler (name : Text)
  | noPersistence
deriving DecidableEq, Repr

/-- What is said of a fault of the configuration. -/
def ConfigFault.message : ConfigFault → Text
  | .noHandlers => "no command handlers configured"
  | .blankHandler name => "blank handler name: " ++ name.quoted
  | .noPersistence => "the database handler needs a persistence service"

/-- Why a message has no meaning. -/
inductive CodecFault
  | unknownDataType (name : Text)
  | wrongManifest (expected got : Text)
deriving DecidableEq, Repr

/-- What is said of a message without meaning. -/
def CodecFault.message : CodecFault → Text
  | .unknownDataType name => "unknown data type: " ++ name
  | .wrongManifest expected got => "expected manifest " ++ expected ++ ", got " ++ got

/-- Why a handler cannot run a command. -/
inductive HandlerFault
  | options (e : OptionError)
  | invalidId (text : Text)
  | invalidStatus (text : Text)
  | missingDataType
  | notOneAction
  | noIds
  /-- A reason in the handler's own words. -/
  | other (text : Text)
deriving DecidableEq, Repr

/-- What is said of a handler's fault. -/
def HandlerFault.message : HandlerFault → Text
  | .options e => e.message
  | .invalidId t => "invalid id: " ++ t
  | .invalidStatus t => "invalid status: " ++ t ++ " (expected active or inactive)"
  | .missingDataType => "missing data type"
  | .notOneAction => "exactly one of --get, --add or --delete is required"
  | .noIds => "no ids to delete"
  | .other t => t

/-- An error of the console. -/
inductive ConsoleError
  | config (f : ConfigFault)
  | handler (f : HandlerFault)
  | unknownHandler (name : Text)
  | unknownManifest (tag : Text)
  | codec (f : CodecFault)
  | mailboxClosed (name : Text)
  /-- Input that is not UTF-8. -/
  | input (f : Utf8.Fault)
  /-- A configuration text that is not TOML, or not of the right form. -/
  | toml
  | json (e : Json.Error)
deriving DecidableEq, Repr

/-- What is said of an error. -/
def ConsoleError.message : ConsoleError → Text
  | .config f => "config error: " ++ f.message
  | .handler f => "handler error: " ++ f.message
  | .unknownHandler name => "unknown command handler: " ++ name
  | .unknownManifest tag => "unknown manifest: " ++ tag
  | .codec f => "codec error: " ++ f.message
  | .mailboxClosed name => "mailbox closed: " ++ name
  | .input f => "I/O error: " ++ f.message
  | .toml => "TOML parse error"
  | .json e => "JSON error: " ++ e.message

end ClusterConsole
