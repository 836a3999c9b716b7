import Fixtures.Calendar.Date
import Fixtures.Calendar.DateTime
import Fixtures.Calendar.Text
import Fixtures.CommandLine.Arguments
import Fixtures.CommandLine.Grammar
import Fixtures.CommandLine.Help
import Fixtures.CommandLine.Run
import Fixtures.CommandLine.Surroundings
import Fixtures.Csv.Record
import Fixtures.Csv.Row
import Fixtures.Decimal.Numeral
import Fixtures.Decimal.Shortest
import Fixtures.Document
import Fixtures.Double.Arithmetic
import Fixtures.Double.Basic
import Fixtures.FileSystem.Actions
import Fixtures.FileSystem.Basic
import Fixtures.FileSystem.Path
import Fixtures.FileSystem.Whole
import Fixtures.Journal.Event
import Fixtures.Journal.FieldValue
import Fixtures.Journal.Filter
import Fixtures.Json.Basic
import Fixtures.Json.Document
import Fixtures.Json.Printer
import Fixtures.Json.Reader
import Fixtures.Kind
import Fixtures.Main
import Fixtures.Memory
import Fixtures.Options
import Fixtures.Options.Check
import Fixtures.Options.Reader
import Fixtures.Output.Buffered
import Fixtures.Output.Counting
import Fixtures.Output.Csv
import Fixtures.Output.Error
import Fixtures.Output.File
import Fixtures.Output.Json
import Fixtures.Output.Ndjson
import Fixtures.Output.Scripted
import Fixtures.Output.Sink
import Fixtures.Pattern.Basic
import Fixtures.Pattern.Reader
import Fixtures.Pattern.Usable
import Fixtures.Proofs.Calendar.Date
import Fixtures.Proofs.Calendar.Instant
import Fixtures.Proofs.Calendar.Text
import Fixtures.Proofs.Csv.Text
import Fixtures.Proofs.Draw.Calendar
import Fixtures.Proofs.Draw.Outcome
import Fixtures.Proofs.Draw.Text
import Fixtures.Proofs.Draw.Uniform
import Fixtures.Proofs.FileSystem.Actions
import Fixtures.Proofs.FileSystem.Walk
import Fixtures.Proofs.Output.Csv
import Fixtures.Proofs.Output.File
import Fixtures.Proofs.Output.Layers
import Fixtures.Proofs.Output.Sink
import Fixtures.Proofs.Output.Text
import Fixtures.Proofs.Output.Writers
import Fixtures.Proofs.Record.Drawn
import Fixtures.Proofs.Record.Ledger
import Fixtures.Proofs.Run.Content
import Fixtures.Proofs.Run.Fixture
import Fixtures.Proofs.Seed.Collision
import Fixtures.Proofs.Shape
import Fixtures.Proofs.Value.Conformance
import Fixtures.Random.Calendar
import Fixtures.Random.ChaCha
import Fixtures.Random.Source
import Fixtures.Random.Text
import Fixtures.Random.Uniform
import Fixtures.Record.Catalog
import Fixtures.Record.Ledger
import Fixtures.Record.Person
import Fixtures.Record.Reader
import Fixtures.Report
import Fixtures.Run.Basic
import Fixtures.Run.Content
import Fixtures.Run.Session
import Fixtures.Settings
import Fixtures.Shape
import Fixtures.Text.Alphanumeric
import Fixtures.Text.Blank
import Fixtures.Text.Uppercase
import Fixtures.Text.Utf8
import Fixtures.Toml.Basic
import Fixtures.Toml.Reader
import Fixtures.Toml.Scalar
import Fixtures.Toml.Table
import Fixtures.Value.Basic
import Fixtures.Value.Json
import Fixtures.Value.Random
import Fixtures.Proofs.Csv.Reader
import Fixtures.Proofs.Output.Ready
import Fixtures.Proofs.Output.Rows
import Fixtures.Proofs.FileSystem.Stay
import Fixtures.Proofs.Run.Independence
import Fixtures.Proofs.Decimal.Digits
import Fixtures.Proofs.Decimal.Numeral
import Fixtures.Proofs.Json.Document
import Fixtures.Proofs.Output.Lines
import Fixtures.Proofs.Value.Reading
import Fixtures.Proofs.Run.Growth
import Fixtures.Proofs.Output.Failure
import Fixtures.Proofs.Run.LastWriter
import Fixtures.Proofs.Run.InTurn
import Fixtures.Proofs.FileSystem.Location
import Fixtures.Proofs.FileSystem.Tree
import Fixtures.Proofs.FileSystem.Whole
import Fixtures.Proofs.FileSystem.Temporary
import Fixtures.Proofs.FileSystem.Spared
import Fixtures.Proofs.Run.Failure
import Fixtures.Proofs.CommandLine.Failure
import Fixtures.Proofs.CommandLine.Arguments
import Fixtures.Proofs.Text.Span
import Fixtures.Proofs.Text.Utf8
import Fixtures.Proofs.Calendar.Reading
import Fixtures.Proofs.Toml.Scalar
import Fixtures.Proofs.Toml.Table
import Fixtures.Proofs.Toml.Lines
import Fixtures.Proofs.Options.Field
import Fixtures.Proofs.Options.Reading
import Fixtures.Proofs.Settings
import Fixtures.Proofs.Document.Json
import Fixtures.Proofs.Document.Reading
import Fixtures.Proofs.Settings.Seed
import Fixtures.Proofs.Draw.Reach
import Fixtures.Proofs.Value.Reach
import Fixtures.Proofs.Double.Order
import Fixtures.Proofs.Double.Arithmetic
import Fixtures.Proofs.Double.Range
import Fixtures.Proofs.Double.Scale
import Fixtures.Proofs.Draw.Float
import Fixtures.Proofs.Value.Floats
import Fixtures.Proofs.Calendar.Gregorian
import Fixtures.Proofs.Record.Window
import Fixtures.Proofs.Json.Nesting
import Fixtures.Proofs.Json.Spacing
import Fixtures.Proofs.Json.Indentation
import Fixtures.Proofs.Run.Indentation
import Fixtures.Proofs.Calendar.Form
import Fixtures.Proofs.Draw.Identifier
import Fixtures.Proofs.Record.Listed
import Fixtures.Proofs.Seed.Inverse
import Fixtures.Proofs.Value.Nodes
import Fixtures.Proofs.Output.Calls
import Fixtures.Proofs.Draw.Range
