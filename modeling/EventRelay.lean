import EventRelay.Chain
import EventRelay.CommandLine.Arguments
import EventRelay.CommandLine.Run
import EventRelay.CommandLine.Session
import EventRelay.Counters
import EventRelay.Decimal.Binary64
import EventRelay.Decimal.Digits
import EventRelay.Decimal.Shortest
import EventRelay.Duration
import EventRelay.Duration.Words
import EventRelay.Endpoint
import EventRelay.Envelope
import EventRelay.Event
import EventRelay.FileTree
import EventRelay.Json.Basic
import EventRelay.Json.Error
import EventRelay.Json.Lexer
import EventRelay.Json.Number
import EventRelay.Json.Printer
import EventRelay.Json.Reader
import EventRelay.Json.Scan
import EventRelay.Json.Skim
import EventRelay.Json.Text
import EventRelay.Json.Token
import EventRelay.Main
import EventRelay.Masking.Masker
import EventRelay.Masking.Pattern
import EventRelay.Message.Configured
import EventRelay.Message.Frame
import EventRelay.Message.Memory
import EventRelay.Message.Producer
import EventRelay.Message.Tcp
import EventRelay.Port
import EventRelay.Proofs.Chain
import EventRelay.Proofs.Json.Depth
import EventRelay.Proofs.Json.Lexing
import EventRelay.Proofs.Json.Normal
import EventRelay.Proofs.Json.RoundTrip
import EventRelay.Proofs.Json.Spelling
import EventRelay.Proofs.Json.Structure
import EventRelay.Proofs.Masking.Event
import EventRelay.Proofs.Masking.Pattern
import EventRelay.Proofs.Masking.Text
import EventRelay.Proofs.Masking.Written
import EventRelay.Proofs.Rule.FirstMatch
import EventRelay.Proofs.Stage.History
import EventRelay.Proofs.Stage.Invocation
import EventRelay.Proofs.Stage.Relay
import EventRelay.Proofs.Store.Memory
import EventRelay.Proofs.Text.Utf8
import EventRelay.Rule.Basic
import EventRelay.Rule.Book
import EventRelay.Rule.Index
import EventRelay.Rule.Record
import EventRelay.Rule.Source
import EventRelay.Settings.Basic
import EventRelay.Settings.Document
import EventRelay.Settings.Environment
import EventRelay.Settings.Logging
import EventRelay.Settings.Validation
import EventRelay.Stage.Assembly
import EventRelay.Stage.Basic
import EventRelay.Stage.Plan
import EventRelay.Stage.Report
import EventRelay.Store.Basic
import EventRelay.Store.Commit
import EventRelay.Store.Configured
import EventRelay.Store.Destination
import EventRelay.Store.Disk
import EventRelay.Store.Memory
import EventRelay.Store.Writer
import EventRelay.Text.Blank
import EventRelay.Text.DecimalDigit
import EventRelay.Text.Hex
import EventRelay.Text.Hidden
import EventRelay.Text.Quoted
import EventRelay.Text.Split
import EventRelay.Text.Utf8
import EventRelay.Toml.Document
import EventRelay.Toml.Scalar
import EventRelay.Toml.Table
import EventRelay.Toml.Text
import EventRelay.Toml.Value
import EventRelay.Proofs.Decimal.Rounding
import EventRelay.Proofs.Decimal.Shortest
import EventRelay.Proofs.Json.Number
import EventRelay.Proofs.Envelope
import EventRelay.Proofs.FileTree
import EventRelay.Proofs.Masking.Leak
import EventRelay.Proofs.Stage.FrontDoor
import EventRelay.Proofs.Stage.Privacy
import EventRelay.Proofs.Store.Commit
import EventRelay.Proofs.Store.Disk
import EventRelay.Proofs.Text.Split
import EventRelay.Proofs.Rule.Ambiguity
import EventRelay.Proofs.Stage.Integrity
import EventRelay.Proofs.FilePath
import EventRelay.Proofs.Rule.Book
import EventRelay.Proofs.Rule.WellFormed
import EventRelay.Proofs.Store.Layout
import EventRelay.Proofs.Store.Mirror
import EventRelay.Proofs.Store.Agreement
import EventRelay.Proofs.Stage.Independence
import EventRelay.Proofs.Text.Order
import EventRelay.Proofs.Stage.Balance
import EventRelay.Proofs.Endpoint
import EventRelay.Proofs.Listing
import EventRelay.Proofs.Rule.Directory
import EventRelay.Proofs.Json.Scan
import EventRelay.Proofs.Json.Members
import EventRelay.Proofs.Masking.Complete
import EventRelay.Proofs.Stage.Refresh
import EventRelay.Proofs.Rule.Spelling
import EventRelay.Proofs.Rule.FieldValue
import EventRelay.Proofs.Rule.Restatement
import EventRelay.Proofs.Masking.Delimited
import EventRelay.Proofs.Store.Confinement
import EventRelay.Proofs.Store.Destination
import EventRelay.Proofs.Rule.Contention
import EventRelay.Proofs.Chain.Reading
import EventRelay.Proofs.Settings.Validation
import EventRelay.Proofs.Settings.Environment
import EventRelay.Proofs.Message.Frame
import EventRelay.Proofs.Store.Writer
import EventRelay.Proofs.Counters
import EventRelay.Proofs.Store.Verification
import EventRelay.Proofs.Json.WellFormed
import EventRelay.Proofs.Json.Joined
import EventRelay.Proofs.Rule.Arrangement
import EventRelay.Proofs.Rule.Classification
import EventRelay.Proofs.Store.Naming
