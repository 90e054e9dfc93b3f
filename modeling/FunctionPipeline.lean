import FunctionPipeline.Activity
import FunctionPipeline.Build.Basic
import FunctionPipeline.Build.Stages
import FunctionPipeline.CommandLine.Build
import FunctionPipeline.CommandLine.Command
import FunctionPipeline.CommandLine.Grammar
import FunctionPipeline.CommandLine.Render
import FunctionPipeline.CommandLine.Run
import FunctionPipeline.CommandLine.Session
import FunctionPipeline.Config.Basic
import FunctionPipeline.Config.Composition
import FunctionPipeline.Config.Error
import FunctionPipeline.Config.File
import FunctionPipeline.Config.Section
import FunctionPipeline.Config.Tools
import FunctionPipeline.Console.Colour
import FunctionPipeline.Console.Duration
import FunctionPipeline.Console.Emoji
import FunctionPipeline.Console.EmojiNames
import FunctionPipeline.Console.Layout
import FunctionPipeline.Console.Literal
import FunctionPipeline.Console.Markup
import FunctionPipeline.Console.Message
import FunctionPipeline.Console.Style
import FunctionPipeline.Decimal.Binary64
import FunctionPipeline.Decimal.Shortest
import FunctionPipeline.Decimal.Length
import FunctionPipeline.Document.Access
import FunctionPipeline.Document.Calendar
import FunctionPipeline.Document.Encodable
import FunctionPipeline.Document.Frozen
import FunctionPipeline.Document.Merge
import FunctionPipeline.Document.Order
import FunctionPipeline.Document.Path
import FunctionPipeline.Document.SetOrder
import FunctionPipeline.Document.Shown
import FunctionPipeline.Document.Text
import FunctionPipeline.Document.Value
import FunctionPipeline.Failure
import FunctionPipeline.Fault
import FunctionPipeline.Files.AtomicWrite
import FunctionPipeline.Files.Path
import FunctionPipeline.Files.Tree
import FunctionPipeline.Invocation.Builder
import FunctionPipeline.Invocation.Engine
import FunctionPipeline.Invocation.Error
import FunctionPipeline.Invocation.Runner
import FunctionPipeline.Invocation.Request
import FunctionPipeline.Invocation.Response
import FunctionPipeline.Json.Reader
import FunctionPipeline.Json.Writer
import FunctionPipeline.Log.Record
import FunctionPipeline.Log.Setup
import FunctionPipeline.Main
import FunctionPipeline.Manifest.Input
import FunctionPipeline.Manifest.Basic
import FunctionPipeline.Manifest.Error
import FunctionPipeline.Manifest.Step
import FunctionPipeline.Reconciliation.Plan
import FunctionPipeline.SourceMap.Inline
import FunctionPipeline.SourceMap.Location
import FunctionPipeline.SourceMap.Lookup
import FunctionPipeline.SourceMap.Mappings
import FunctionPipeline.State.Basic
import FunctionPipeline.State.Resource
import FunctionPipeline.Text.Base64
import FunctionPipeline.Text.Pieces
import FunctionPipeline.Text.CellWidth
import FunctionPipeline.Text.Numeral
import FunctionPipeline.Text.Encoding
import FunctionPipeline.Text.Hex
import FunctionPipeline.Text.Ranges
import FunctionPipeline.Text.Lower
import FunctionPipeline.Text.Printable
import FunctionPipeline.Text.Quoted
import FunctionPipeline.Text.Sha256
import FunctionPipeline.Text.Shortened
import FunctionPipeline.Text.Similarity
import FunctionPipeline.Text.Upper
import FunctionPipeline.Text.Utf8
import FunctionPipeline.Text.Word
import FunctionPipeline.Tool.Bundler
import FunctionPipeline.Tool.Downgrader
import FunctionPipeline.Tool.Error
import FunctionPipeline.Tool.ModuleReferences
import FunctionPipeline.Tool.Run
import FunctionPipeline.Yaml.Characters
import FunctionPipeline.Yaml.Content
import FunctionPipeline.Yaml.Cursor
import FunctionPipeline.Yaml.Document
import FunctionPipeline.Yaml.Graph
import FunctionPipeline.Yaml.GraphContent
import FunctionPipeline.Yaml.Node
import FunctionPipeline.Yaml.Printer
import FunctionPipeline.Yaml.ScalarReader
import FunctionPipeline.Yaml.ScalarValue
import FunctionPipeline.Yaml.Style
import FunctionPipeline.Yaml.Tag
import FunctionPipeline.Yaml.Token
import FunctionPipeline.Yaml.Writer
import FunctionPipeline.Proofs.Document.TextKeys
import FunctionPipeline.Proofs.Document.Closed
import FunctionPipeline.Proofs.Document.Trees
import FunctionPipeline.Proofs.Document.Merging
import FunctionPipeline.Proofs.Document.LongIntegers
import FunctionPipeline.Proofs.Tool.Operations
import FunctionPipeline.Proofs.Invocation.Calls
import FunctionPipeline.Proofs.Invocation.StoredBody
import FunctionPipeline.Proofs.Invocation.NormalForm
import FunctionPipeline.Proofs.State.RoundTrip
import FunctionPipeline.Proofs.Invocation.Composition
import FunctionPipeline.Proofs.Invocation.AllOrNothing
import FunctionPipeline.Proofs.Yaml.Cursors
import FunctionPipeline.Proofs.Yaml.QuotedScalars
import FunctionPipeline.Proofs.Yaml.PlainScalars
import FunctionPipeline.Proofs.Yaml.LiteralBlocks
import FunctionPipeline.Proofs.Yaml.Styles
import FunctionPipeline.Proofs.Yaml.WrittenText
import FunctionPipeline.Proofs.Yaml.Lexing
import FunctionPipeline.Proofs.Yaml.Indicators
import FunctionPipeline.Proofs.Yaml.ScalarTokens
import FunctionPipeline.Proofs.Yaml.KeptDocuments
import FunctionPipeline.Proofs.Yaml.DocumentTokens
import FunctionPipeline.Proofs.Yaml.Nodes
import FunctionPipeline.Proofs.Yaml.NodeTokens
import FunctionPipeline.Proofs.Decimal.NearestRank
import FunctionPipeline.Proofs.Decimal.Shortest
import FunctionPipeline.Proofs.Text.Hex
import FunctionPipeline.Proofs.Text.Numeral
import FunctionPipeline.Proofs.Decimal.PointText
import FunctionPipeline.Proofs.Yaml.Words
import FunctionPipeline.Proofs.Yaml.AsciiDocuments
import FunctionPipeline.Proofs.Manifest.Documents
import FunctionPipeline.Proofs.Manifest.Texts
import FunctionPipeline.Proofs.Document.Keys
import FunctionPipeline.Proofs.Document.RepeatedMerges
import FunctionPipeline.Proofs.Yaml.FixedPoint
import FunctionPipeline.Proofs.Reconciliation.Convergence
import FunctionPipeline.Proofs.Files.AtomicWrite
import FunctionPipeline.Proofs.Tool.Runs
import FunctionPipeline.Proofs.Build.OutputFile
import FunctionPipeline.Proofs.Build.DataFlow
import FunctionPipeline.Proofs.Invocation.Bodies
import FunctionPipeline.Proofs.Invocation.Untouched
import FunctionPipeline.Proofs.Reconciliation.Agreement
import FunctionPipeline.Proofs.SourceMap.Vlq
import FunctionPipeline.Proofs.SourceMap.Mappings
import FunctionPipeline.Proofs.Document.Equality
import FunctionPipeline.Proofs.Document.FreshStarts
import FunctionPipeline.Proofs.State.Equality
import FunctionPipeline.Proofs.Reconciliation.SamePlans
import FunctionPipeline.Proofs.Reconciliation.Idempotency
import FunctionPipeline.Proofs.Manifest.RoundTrip
import FunctionPipeline.Proofs.Invocation.RoundTrip
import FunctionPipeline.Proofs.Json.Reading
import FunctionPipeline.Proofs.SourceMap.Inline
import FunctionPipeline.Proofs.Build.Rejections
import FunctionPipeline.Proofs.Yaml.ScalarFaults
import FunctionPipeline.Proofs.Yaml.NodeFaults
import FunctionPipeline.Proofs.Yaml.TokenFaults
import FunctionPipeline.Proofs.Yaml.GraphFaults
import FunctionPipeline.Proofs.Manifest.Decoding
import FunctionPipeline.Proofs.Document.MergePaths
import FunctionPipeline.Proofs.Document.Identity
import FunctionPipeline.Proofs.Document.JsonValues
import FunctionPipeline.Proofs.Invocation.Encodable
import FunctionPipeline.Proofs.Invocation.StatusDelta
import FunctionPipeline.Proofs.SourceMap.GivenOrder
import FunctionPipeline.Proofs.SourceMap.Positions
import FunctionPipeline.Proofs.SourceMap.SourceIndices
import FunctionPipeline.Proofs.Config.Contained
import FunctionPipeline.Proofs.Build.ToolFailures
import FunctionPipeline.Proofs.Build.EarlyCheck
import FunctionPipeline.Proofs.Files.WriteSequences
import FunctionPipeline.Proofs.Text.Octets
import FunctionPipeline.Proofs.Json.Scalars
import FunctionPipeline.Proofs.Json.RoundTrip
import FunctionPipeline.Proofs.SourceMap.Comments
import FunctionPipeline.Proofs.Document.ObjectGraphs
import FunctionPipeline.Proofs.Document.FirstOffence
import FunctionPipeline.Proofs.Document.EncodableGraphs
import FunctionPipeline.Proofs.Reconciliation.Partition
import FunctionPipeline.Proofs.Document.Equivalence
import FunctionPipeline.Proofs.Tool.Plugins
import FunctionPipeline.Proofs.Manifest.StepNames
import FunctionPipeline.Proofs.Manifest.Reading
import FunctionPipeline.Proofs.Text.Pieces
import FunctionPipeline.Proofs.Tool.ReferenceScan
import FunctionPipeline.Proofs.Tool.ReferenceLines
import FunctionPipeline.Proofs.Tool.LineSearch
import FunctionPipeline.Proofs.Tool.ReferenceCode
