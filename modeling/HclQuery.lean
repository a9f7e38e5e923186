import HclQuery.Text.Blank
import HclQuery.Text.Lines
import HclQuery.Text.CharClass
import HclQuery.Text.Extent
import HclQuery.Text.Hex
import HclQuery.Text.Excerpt
import HclQuery.Text.Utf8
import HclQuery.Label
import HclQuery.Tree
import HclQuery.Layout.Scanner
import HclQuery.Layout.Reindent
import HclQuery.Layout.Render
import HclQuery.Document.Attributes
import HclQuery.Document.Basic
import HclQuery.Document.Conversion
import HclQuery.Document.Edit
import HclQuery.Decimal.Binary64
import HclQuery.Decimal.Shortest
import HclQuery.Mismatch
import HclQuery.Json.Fault
import HclQuery.Json.Reader
import HclQuery.Json.Skip
import HclQuery.Json.Decoder
import HclQuery.Json.Writer
import HclQuery.Document.Encode
import HclQuery.Document.Decode
import HclQuery.Grammar.Trivia
import HclQuery.Grammar.Word
import HclQuery.Grammar.Template
import HclQuery.Grammar.Token
import HclQuery.Grammar.Expression
import HclQuery.Grammar.Source
import HclQuery.Grammar.Concrete
import HclQuery.Grammar.Excerpt
import HclQuery.Grammar.Diagnosis
import HclQuery.Configuration
import HclQuery.Filter
import HclQuery.Query
import HclQuery.Toml.Quoted
import HclQuery.Toml.Datetime
import HclQuery.Toml.Scalar
import HclQuery.Toml.Token
import HclQuery.Toml.Value
import HclQuery.Toml.Reader
import HclQuery.Toml.Document
import HclQuery.Toml.Report
import HclQuery.Disk.Basic
import HclQuery.Disk.Tree
import HclQuery.Settings.Basic
import HclQuery.Settings.Decode
import HclQuery.Settings.Source
import HclQuery.Input
import HclQuery.Shell.Syntax
import HclQuery.Shell.Token
import HclQuery.Shell.Reader
import HclQuery.Shell.Arithmetic
import HclQuery.Shell.Escape
import HclQuery.Shell.Pattern
import HclQuery.Shell.Tools
import HclQuery.Shell.State
import HclQuery.Shell.Run
import HclQuery.Host
import HclQuery.CommandLine.Arguments
import HclQuery.CommandLine.Report
import HclQuery.CommandLine.Run
import HclQuery.Main
import HclQuery.Proofs.Text.Utf8
import HclQuery.Proofs.Text.Blank
import HclQuery.Proofs.Text.Lines
import HclQuery.Proofs.Json.Strings
import HclQuery.Proofs.Json.Values
import HclQuery.Proofs.Json.Grammar
import HclQuery.Proofs.Json.Skipping
import HclQuery.Proofs.Json.Decoding
import HclQuery.Proofs.Label
import HclQuery.Proofs.Layout.Reindent
import HclQuery.Proofs.Layout.Alignment
import HclQuery.Proofs.Layout.Code
import HclQuery.Proofs.Layout.Heredoc
import HclQuery.Proofs.Grammar.Concrete
import HclQuery.Proofs.Grammar.Consumption
import HclQuery.Proofs.Grammar.States
import HclQuery.Proofs.Grammar.Respacing
import HclQuery.Proofs.Grammar.RespacedCode
import HclQuery.Proofs.Grammar.RespacedTrivia
import HclQuery.Proofs.Grammar.Trivia
import HclQuery.Proofs.Grammar.RespacedParts
import HclQuery.Proofs.Grammar.Expressions
import HclQuery.Proofs.Grammar.Reindented
import HclQuery.Proofs.Grammar.Items
import HclQuery.Proofs.Grammar.Parsed
import HclQuery.Proofs.Grammar.Continued
import HclQuery.Proofs.Document.Attributes
import HclQuery.Proofs.Document.Codec
import HclQuery.Proofs.Document.WireFormat
import HclQuery.Proofs.Document.Rendering
import HclQuery.Proofs.Document.WellFormed
import HclQuery.Proofs.Document.Reading
import HclQuery.Proofs.Document.RoundTrip
import HclQuery.Proofs.Document.NormalForm
import HclQuery.Proofs.Document.Transfer
import HclQuery.Proofs.Configuration
import HclQuery.Proofs.Grammar.Insertion
import HclQuery.Proofs.Grammar.Joined
import HclQuery.Proofs.Input
import HclQuery.Proofs.Query.Refinement
import HclQuery.Proofs.Query.Selection
import HclQuery.Proofs.Query.Outcomes
import HclQuery.Proofs.Layout.Header
import HclQuery.Proofs.Toml.Keys
import HclQuery.Proofs.Settings.Layers
import HclQuery.Proofs.CommandLine.Settings
import HclQuery.Proofs.Grammar.Quoted
import HclQuery.Proofs.Document.Blockwise
import HclQuery.Proofs.Document.Denotation
import HclQuery.Proofs.Document.Lenient
import HclQuery.Proofs.Layout.Literal
import HclQuery.Proofs.Layout.Groups
import HclQuery.Proofs.Layout.Indentation
import HclQuery.Proofs.Layout.Depth
import HclQuery.Proofs.Document.Lookup
import HclQuery.Proofs.Tree
import HclQuery.Proofs.Label.CodePoints
import HclQuery.Proofs.Input.Sources
import HclQuery.Proofs.Settings.Shape
import HclQuery.Proofs.Layout.Linewise
import HclQuery.Proofs.Text.Extent
import HclQuery.Proofs.Grammar.Excerpt
