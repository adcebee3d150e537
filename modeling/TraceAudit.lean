import TraceAudit.Call.Basic
import TraceAudit.Call.Id
import TraceAudit.Call.Journal
import TraceAudit.CommandLine.Arguments
import TraceAudit.CommandLine.Invocation
import TraceAudit.CommandLine.Response
import TraceAudit.Config.Basic
import TraceAudit.Config.Reading
import TraceAudit.Correlation
import TraceAudit.Digest.Sha256
import TraceAudit.Disk.Basic
import TraceAudit.Disk.Path
import TraceAudit.Json.Basic
import TraceAudit.Json.Fault
import TraceAudit.Json.Fields
import TraceAudit.Json.Numeral
import TraceAudit.Json.Printer
import TraceAudit.Json.Tree
import TraceAudit.Main
import TraceAudit.Number.Double
import TraceAudit.Number.Shortest
import TraceAudit.Number.Word
import TraceAudit.Proofs.Call.Answers
import TraceAudit.Proofs.Call.Recorded
import TraceAudit.Proofs.CommandLine.ExitStatus
import TraceAudit.Proofs.CommandLine.FolderNames
import TraceAudit.Proofs.CommandLine.Inspection
import TraceAudit.Proofs.CommandLine.PrintedLines
import TraceAudit.Proofs.CommandLine.Views
import TraceAudit.Proofs.Correlation.Attribution
import TraceAudit.Proofs.Correlation.Batching
import TraceAudit.Proofs.Correlation.SpanCounts
import TraceAudit.Proofs.Disk.Folders
import TraceAudit.Proofs.Disk.Growing
import TraceAudit.Proofs.Disk.Listing
import TraceAudit.Proofs.Disk.Retimed
import TraceAudit.Proofs.Json.Blank
import TraceAudit.Proofs.Json.Complete
import TraceAudit.Proofs.Json.Members
import TraceAudit.Proofs.Json.OneLine
import TraceAudit.Proofs.Json.Written
import TraceAudit.Proofs.Record.Envelope
import TraceAudit.Proofs.Schema.Acceptance
import TraceAudit.Proofs.Schema.AllowLists
import TraceAudit.Proofs.Schema.Declaration
import TraceAudit.Proofs.Schema.Decoding
import TraceAudit.Proofs.Schema.Findings
import TraceAudit.Proofs.Schema.Keys
import TraceAudit.Proofs.Schema.Positions
import TraceAudit.Proofs.Session.Books
import TraceAudit.Proofs.Session.Course
import TraceAudit.Proofs.Session.Failures
import TraceAudit.Proofs.Session.Isolation
import TraceAudit.Proofs.Session.Ledger
import TraceAudit.Proofs.Session.LiveReplay
import TraceAudit.Proofs.Session.Pointwise
import TraceAudit.Proofs.Session.Preparation
import TraceAudit.Proofs.Session.SpanCounts
import TraceAudit.Proofs.Session.TapLines
import TraceAudit.Proofs.Session.Teardown
import TraceAudit.Proofs.Session.Tolerance
import TraceAudit.Proofs.Session.Totals
import TraceAudit.Proofs.Session.Untimed
import TraceAudit.Proofs.Session.Visible
import TraceAudit.Proofs.Store.Account
import TraceAudit.Proofs.Store.Arrival
import TraceAudit.Proofs.Store.Cursors
import TraceAudit.Proofs.Store.Document
import TraceAudit.Proofs.Store.Finished
import TraceAudit.Proofs.Store.Growth
import TraceAudit.Proofs.Store.History
import TraceAudit.Proofs.Store.Interruption
import TraceAudit.Proofs.Store.Lines
import TraceAudit.Proofs.Store.Log
import TraceAudit.Proofs.Store.Numbering
import TraceAudit.Proofs.Store.Progress
import TraceAudit.Proofs.Store.Pursuit
import TraceAudit.Proofs.Store.Resumption
import TraceAudit.Proofs.Store.Salvage
import TraceAudit.Proofs.Store.Schedule
import TraceAudit.Proofs.Store.SingleFile
import TraceAudit.Proofs.Store.Stillness
import TraceAudit.Proofs.Store.Truncation
import TraceAudit.Proofs.Store.Untimed
import TraceAudit.Proofs.Store.Watching
import TraceAudit.Proofs.Text.Cutting
import TraceAudit.Proofs.Text.Distinct
import TraceAudit.Proofs.Time.Written
import TraceAudit.Proofs.Trace.Numeral
import TraceAudit.Proofs.Trace.Readable
import TraceAudit.Proofs.Trace.RequestId
import TraceAudit.Proofs.Trace.Writing
import TraceAudit.Proofs.Validator.ArrivalOrder
import TraceAudit.Proofs.Validator.Continuity
import TraceAudit.Proofs.Validator.Grounds
import TraceAudit.Proofs.Validator.SharedTraces
import TraceAudit.Proofs.Validator.Untimed
import TraceAudit.Proofs.Validator.WaitOutcome
import TraceAudit.Proofs.Version.Decoration
import TraceAudit.Proofs.Version.Order
import TraceAudit.Proofs.Version.OwnForm
import TraceAudit.Proofs.Version.Precedence
import TraceAudit.Proofs.Version.Preorder
import TraceAudit.Proofs.Version.Reports
import TraceAudit.Proofs.Version.Spelling
import TraceAudit.Record.Basic
import TraceAudit.Record.Envelope
import TraceAudit.Record.Shape
import TraceAudit.Scenario
import TraceAudit.Schema.Basic
import TraceAudit.Schema.Catalog
import TraceAudit.Schema.Check
import TraceAudit.Schema.Selection
import TraceAudit.Session.Basic
import TraceAudit.Session.Client
import TraceAudit.Session.Error
import TraceAudit.Session.Finish
import TraceAudit.Session.Interface
import TraceAudit.Session.Report
import TraceAudit.Session.Tap
import TraceAudit.Session.Watch
import TraceAudit.Source
import TraceAudit.Store.Basic
import TraceAudit.Store.Scan
import TraceAudit.Telemetry.Header
import TraceAudit.Text.Base64
import TraceAudit.Text.Blank
import TraceAudit.Text.Decimal
import TraceAudit.Text.Detail
import TraceAudit.Text.Distinct
import TraceAudit.Text.Printable
import TraceAudit.Text.Quoted
import TraceAudit.Text.Split
import TraceAudit.Text.Utf8
import TraceAudit.Time.Calendar
import TraceAudit.Time.Timestamp
import TraceAudit.Toml.Document
import TraceAudit.Toml.Scalar
import TraceAudit.Toml.Table
import TraceAudit.Trace.Decode
import TraceAudit.Trace.RequestId
import TraceAudit.Trace.Span
import TraceAudit.Validator.Basic
import TraceAudit.Validator.Evaluation
import TraceAudit.Version.Basic
import TraceAudit.Version.Component
import TraceAudit.Version.Library
