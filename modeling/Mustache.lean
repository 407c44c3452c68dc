import Mustache.Cache
import Mustache.CommandLine.Invocation
import Mustache.CommandLine.Run
import Mustache.Config.Environment
import Mustache.Config.File
import Mustache.Config.Schema
import Mustache.Config.Settings
import Mustache.Config.Table
import Mustache.Data.Calendar
import Mustache.Data.Document
import Mustache.Data.File
import Mustache.Data.Json
import Mustache.Data.Toml.Date
import Mustache.Data.Toml.Reader
import Mustache.Data.Toml.Scalar
import Mustache.Data.Toml.Scope
import Mustache.Engine
import Mustache.Error
import Mustache.Fields
import Mustache.Files.Canonical
import Mustache.Files.Path
import Mustache.Files.Tree
import Mustache.Host
import Mustache.Keyed
import Mustache.Loader
import Mustache.Log.Entry
import Mustache.Log.File
import Mustache.Log.Level
import Mustache.Main
import Mustache.Number.Exact
import Mustache.Number.Integer
import Mustache.Number.Literal
import Mustache.Number.Shortest
import Mustache.Packages.Arguments
import Mustache.Packages.Logging
import Mustache.Packages.Readers
import Mustache.Packages.Usual
import Mustache.Packages.Validation
import Mustache.Packages.Yaml.Cursor
import Mustache.Packages.Yaml.Node
import Mustache.Packages.Yaml.Reader
import Mustache.Packages.Yaml.Scalar
import Mustache.Packages.Yaml.Stream
import Mustache.Packages.Yaml.Text
import Mustache.Packages.Yaml.Token
import Mustache.Position
import Mustache.Proofs.CommandLine.Check
import Mustache.Proofs.Config.Failure
import Mustache.Proofs.Config.Inference
import Mustache.Proofs.Config.Layers
import Mustache.Proofs.Config.Lookup
import Mustache.Proofs.Config.Merging
import Mustache.Proofs.Config.Reading
import Mustache.Proofs.Config.Reordering
import Mustache.Proofs.Config.TextSettings
import Mustache.Proofs.Config.Validation
import Mustache.Proofs.Config.Variables
import Mustache.Proofs.Engine.Batch
import Mustache.Proofs.Engine.Events
import Mustache.Proofs.Engine.History
import Mustache.Proofs.Engine.Mirroring
import Mustache.Proofs.Engine.Refusal
import Mustache.Proofs.Engine.Snapshot
import Mustache.Proofs.Files.Appending
import Mustache.Proofs.Files.Confinement
import Mustache.Proofs.Files.Faults
import Mustache.Proofs.Files.Opening
import Mustache.Proofs.Files.Resolution
import Mustache.Proofs.Files.Writing
import Mustache.Proofs.Files.Written
import Mustache.Proofs.Keyed
import Mustache.Proofs.Lockstep
import Mustache.Proofs.Position
import Mustache.Proofs.Render.Closure
import Mustache.Proofs.Render.DepthLimit
import Mustache.Proofs.Render.Expansion
import Mustache.Proofs.Render.Extension
import Mustache.Proofs.Render.FailingSink
import Mustache.Proofs.Render.Keeping
import Mustache.Proofs.Render.Naming
import Mustache.Proofs.Render.Opposites
import Mustache.Proofs.Render.ScalarContext
import Mustache.Proofs.Render.StaticHeight
import Mustache.Proofs.Render.Stepwise
import Mustache.Proofs.Render.UnreadFields
import Mustache.Proofs.Render.Walk
import Mustache.Proofs.Run
import Mustache.Proofs.Template.Concatenation
import Mustache.Proofs.Template.Limit
import Mustache.Proofs.Template.LineEnds
import Mustache.Proofs.Template.Location
import Mustache.Proofs.Template.Nesting
import Mustache.Proofs.Template.Offence
import Mustache.Proofs.Template.Piece
import Mustache.Proofs.Template.Printer
import Mustache.Proofs.Template.Progress
import Mustache.Proofs.Template.RaisedLimit
import Mustache.Proofs.Template.Reading
import Mustache.Proofs.Template.Scan
import Mustache.Proofs.Template.Stack
import Mustache.Proofs.Template.Transcription
import Mustache.Proofs.Template.Turn
import Mustache.Proofs.Template.Window
import Mustache.Proofs.Traversal
import Mustache.Proofs.Value.Binding
import Mustache.Proofs.Value.Lambda
import Mustache.Proofs.Value.Nature
import Mustache.Render
import Mustache.Session
import Mustache.Template.Defect
import Mustache.Template.Node
import Mustache.Template.Section
import Mustache.Template.Span
import Mustache.Template.Tag
import Mustache.Template.Tree
import Mustache.Text.Blank
import Mustache.Text.Cased
import Mustache.Text.DecimalDigit
import Mustache.Text.Encoding
import Mustache.Text.LineEnd
import Mustache.Text.Lowercase
import Mustache.Text.Printable
import Mustache.Text.Quoted
import Mustache.Text.Utf8
import Mustache.Value.Basic
import Mustache.Value.Bind
import Mustache.Value.Datum
import Mustache.Value.Object
