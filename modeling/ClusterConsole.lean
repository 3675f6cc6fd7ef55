import ClusterConsole.Ascending
import ClusterConsole.Binary64
import ClusterConsole.Binary64.Shortest
import ClusterConsole.Cluster
import ClusterConsole.Command
import ClusterConsole.CommandLine
import ClusterConsole.CommandPath
import ClusterConsole.Config
import ClusterConsole.Config.Document
import ClusterConsole.Config.Form
import ClusterConsole.Console
import ClusterConsole.ConsoleError
import ClusterConsole.Database.Answer
import ClusterConsole.Database.Request
import ClusterConsole.Event
import ClusterConsole.Handler
import ClusterConsole.Json
import ClusterConsole.Json.Fault
import ClusterConsole.Json.Form
import ClusterConsole.Json.Reader
import ClusterConsole.Json.Stream
import ClusterConsole.Json.Writer
import ClusterConsole.Line
import ClusterConsole.Listing
import ClusterConsole.Mailbox
import ClusterConsole.Main
import ClusterConsole.Options.Definition
import ClusterConsole.Options.Parse
import ClusterConsole.Options.Set
import ClusterConsole.Record
import ClusterConsole.Record.Dump
import ClusterConsole.Record.Wire
import ClusterConsole.RecordService
import ClusterConsole.Registration
import ClusterConsole.Registry
import ClusterConsole.Registry.Startup
import ClusterConsole.Resolution
import ClusterConsole.Script
import ClusterConsole.Session
import ClusterConsole.Store
import ClusterConsole.Text
import ClusterConsole.Text.Blank
import ClusterConsole.Text.Printable
import ClusterConsole.Text.Quoted
import ClusterConsole.Text.Utf8
import ClusterConsole.Token.Lexer
import ClusterConsole.Toml
import ClusterConsole.Toml.Draft
import ClusterConsole.Toml.Quoted
import ClusterConsole.Toml.Reader
import ClusterConsole.Toml.Scalar
import ClusterConsole.Toml.Writer
import ClusterConsole.Proofs.Text.Utf8
import ClusterConsole.Proofs.Except
import ClusterConsole.Proofs.Token.Scan
import ClusterConsole.Proofs.Token.Grammar
import ClusterConsole.Proofs.Resolution.Settling
import ClusterConsole.Proofs.Resolution.Cycle
import ClusterConsole.Proofs.Console.Wiring
import ClusterConsole.Proofs.Console.Response
import ClusterConsole.Proofs.Registry.Barrier
import ClusterConsole.Proofs.Json.Number
import ClusterConsole.Proofs.Json.Text
import ClusterConsole.Proofs.Json.Value
import ClusterConsole.Proofs.Json.Document
import ClusterConsole.Proofs.Record.Wire
import ClusterConsole.Proofs.Database.Spelling
import ClusterConsole.Proofs.Database.Telling
import ClusterConsole.Proofs.Database.Inert
import ClusterConsole.Proofs.Registry.Arrivals
import ClusterConsole.Proofs.Registry.Startup
import ClusterConsole.Proofs.Store.History
import ClusterConsole.Proofs.Resolution.Delivery
import ClusterConsole.Proofs.Json.Nesting
import ClusterConsole.Proofs.Record.Codec
import ClusterConsole.Proofs.Console.Session
import ClusterConsole.Proofs.Text.Lines
import ClusterConsole.Proofs.Registry.Abbreviation
import ClusterConsole.Proofs.Resolution.FullName
import ClusterConsole.Proofs.Options.Rendering
import ClusterConsole.Proofs.Options.Tokens
import ClusterConsole.Proofs.Options.Required
import ClusterConsole.Proofs.Options.Accounting
import ClusterConsole.Proofs.Token.Spelling
import ClusterConsole.Proofs.Toml.Quoted
import ClusterConsole.Proofs.Toml.Lines
import ClusterConsole.Proofs.Toml.Tables
import ClusterConsole.Proofs.Config.Document
import ClusterConsole.Proofs.Token.Cursor
import ClusterConsole.Proofs.Token.Blank
import ClusterConsole.Proofs.Console.Offsets
import ClusterConsole.Proofs.Resolution.Path
import ClusterConsole.Proofs.Store.Deletion
import ClusterConsole.Proofs.Registry.Batches
import ClusterConsole.Proofs.Store.Wire
import ClusterConsole.Proofs.Resolution.Nameless
import ClusterConsole.Proofs.Console.Stream
import ClusterConsole.Proofs.Console.Help
import ClusterConsole.Proofs.Toml.Sorting
import ClusterConsole.Proofs.Config.Setting
import ClusterConsole.Proofs.Database.Status
import ClusterConsole.Proofs.Console.Installing
import ClusterConsole.Proofs.Options.Members
import ClusterConsole.Proofs.Text.Order
import ClusterConsole.Proofs.Registry.Selection
import ClusterConsole.Proofs.Database.Ids
