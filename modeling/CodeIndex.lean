import CodeIndex.Build
import CodeIndex.CommandLine.Arguments
import CodeIndex.CommandLine.Command
import CodeIndex.Config.Settings
import CodeIndex.Config.Value
import CodeIndex.Decimal
import CodeIndex.Detection
import CodeIndex.Endpoint.Controller
import CodeIndex.Endpoint.Decorated
import CodeIndex.Endpoint.FileRoute
import CodeIndex.Endpoint.RoutePath
import CodeIndex.Endpoint.Router
import CodeIndex.Endpoint.View
import CodeIndex.Environment
import CodeIndex.Extract
import CodeIndex.Failure
import CodeIndex.FileTree.Basic
import CodeIndex.FileTree.Changes
import CodeIndex.FileTree.Edit
import CodeIndex.FileTree.Resolve
import CodeIndex.Finding
import CodeIndex.Generate
import CodeIndex.Ignore.Glob
import CodeIndex.Ignore.Rule
import CodeIndex.Indented.Header
import CodeIndex.Indented.Lookahead
import CodeIndex.Indented.Outline
import CodeIndex.Json
import CodeIndex.Json.Parser
import CodeIndex.Json.Printer
import CodeIndex.Log
import CodeIndex.Main
import CodeIndex.Outline
import CodeIndex.Path
import CodeIndex.Program
import CodeIndex.Project
import CodeIndex.Proofs.Text.Blank
import CodeIndex.Proofs.Text.Cut
import CodeIndex.Report.Json
import CodeIndex.Report.Markdown
import CodeIndex.Scan
import CodeIndex.Schema.Declarative
import CodeIndex.Schema.Entity
import CodeIndex.Schema.ModelField
import CodeIndex.Script.Grammar.Basic
import CodeIndex.Script.Grammar.Class
import CodeIndex.Script.Grammar.Element
import CodeIndex.Script.Grammar.Expression
import CodeIndex.Script.Grammar.Function
import CodeIndex.Script.Grammar.Statement
import CodeIndex.Script.Grammar.Type
import CodeIndex.Script.Node
import CodeIndex.Script.Outline
import CodeIndex.Script.Parser
import CodeIndex.Script.Syntax
import CodeIndex.Script.Token
import CodeIndex.Service
import CodeIndex.Technology
import CodeIndex.Text.Basic
import CodeIndex.Text.Blank
import CodeIndex.Text.Bracket
import CodeIndex.Text.Letter
import CodeIndex.Text.Lines
import CodeIndex.Text.Quoted
import CodeIndex.Text.Search
import CodeIndex.Text.TripleQuote
import CodeIndex.Text.Visible
import CodeIndex.Text.Word
import CodeIndex.Timestamp
import CodeIndex.Utf8
import CodeIndex.Yaml.Cursor
import CodeIndex.Yaml.Document
import CodeIndex.Yaml.Layout
import CodeIndex.Yaml.Node
import CodeIndex.Yaml.Scalar
import CodeIndex.Yaml.Tag
import CodeIndex.Yaml.Time
import CodeIndex.Yaml.Token
import CodeIndex.Proofs.Text.TripleQuote
import CodeIndex.Proofs.Text.Capture
import CodeIndex.Proofs.Text.Bracket
import CodeIndex.Proofs.Text.Lines
import CodeIndex.Proofs.Indented.Source
import CodeIndex.Proofs.Indented.Header
import CodeIndex.Proofs.Indented.Lookahead
import CodeIndex.Proofs.Indented.Step
import CodeIndex.Proofs.Indented.Printing
import CodeIndex.Proofs.Indented.Roundtrip
import CodeIndex.Proofs.Indented.Headings
import CodeIndex.Proofs.Indented.Placement
import CodeIndex.Proofs.FileTree.Basic
import CodeIndex.Proofs.Ignore.Rule
import CodeIndex.Proofs.Text.OpenString
import CodeIndex.Proofs.Text.Order
import CodeIndex.Proofs.Scan
import CodeIndex.Proofs.Build
import CodeIndex.Proofs.Indented.Opaque
import CodeIndex.Proofs.Indented.Unclosed
import CodeIndex.Proofs.Indented.Property
import CodeIndex.Proofs.Schema.Declarative
import CodeIndex.Proofs.Schema.ClassSpan
import CodeIndex.Proofs.Endpoint.Decorated
import CodeIndex.Proofs.Json.Roundtrip
import CodeIndex.Proofs.Report.Json
import CodeIndex.Proofs.FileTree.Plain
import CodeIndex.Proofs.FileTree.Resolve
import CodeIndex.Proofs.FileTree.Edit
import CodeIndex.Proofs.Rescan
import CodeIndex.Proofs.Generate
import CodeIndex.Proofs.Script.Preorder
import CodeIndex.Proofs.Script.Records
import CodeIndex.Proofs.OutlineOptions
import CodeIndex.Proofs.OutputHidden
import CodeIndex.Proofs.FileTree.Reach
import CodeIndex.Proofs.OutputWritten
import CodeIndex.Proofs.Config.Overrides
import CodeIndex.Proofs.ShownRecords
import CodeIndex.Proofs.Indented.ImportLists
import CodeIndex.Proofs.FileTree.Links
import CodeIndex.Proofs.FileTree.Relative
import CodeIndex.Proofs.Report.Directories
import CodeIndex.Proofs.Config.Rejection
import CodeIndex.Proofs.Dispatch
import CodeIndex.Proofs.Indented.IdleLines
import CodeIndex.Proofs.Indented.SignatureLayout
import CodeIndex.Proofs.Indented.CommentedLines
import CodeIndex.Proofs.Indented.ImportLayout
import CodeIndex.Proofs.Indented.Nesting
import CodeIndex.Proofs.Indented.Ledger
import CodeIndex.Proofs.Indented.Docstrings
import CodeIndex.Proofs.Schema.ModelField
import CodeIndex.Proofs.Text.TopLevel
import CodeIndex.Proofs.Indented.Parameters
import CodeIndex.Proofs.ArgumentText
import CodeIndex.Proofs.Text.StringContent
import CodeIndex.Proofs.Ignore.Literal
import CodeIndex.Proofs.Endpoint.RoutePath
import CodeIndex.Proofs.Utf8
import CodeIndex.Proofs.Script.Trivia
import CodeIndex.Proofs.Report.Tables
import CodeIndex.Proofs.Endpoint.JoinedPath
import CodeIndex.Proofs.Endpoint.Controller
import CodeIndex.Proofs.Endpoint.View
import CodeIndex.Proofs.Schema.Entity
import CodeIndex.Proofs.Technology
import CodeIndex.Proofs.CapturedCall
import CodeIndex.Proofs.Text.LineNumber
