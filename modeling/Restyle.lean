import Restyle.Args.Help
import Restyle.Args.Level
import Restyle.Args.Request
import Restyle.Cli.Run
import Restyle.Decimal.Binary
import Restyle.Decimal.Notation
import Restyle.Digest.XxHash
import Restyle.Edit.Apply
import Restyle.Edit.Buffer
import Restyle.Edit.Listing
import Restyle.Edit.Offset
import Restyle.Edit.Replacement
import Restyle.Failure
import Restyle.File.Kind
import Restyle.File.Path
import Restyle.File.Store
import Restyle.Format.Desk
import Restyle.Format.Edit
import Restyle.Format.Engine
import Restyle.Format.Outcome
import Restyle.Host.Basic
import Restyle.Json.Reader
import Restyle.Json.Token
import Restyle.Json.Value
import Restyle.Log.Level
import Restyle.Machine.Disk
import Restyle.Machine.Printing
import Restyle.Machine.Program
import Restyle.Machine.Run
import Restyle.Machine.Script
import Restyle.Machine.Shell
import Restyle.Machine.Stream
import Restyle.Machine.Sum
import Restyle.Machine.Word
import Restyle.Main
import Restyle.Markup.Attribute
import Restyle.Markup.Event
import Restyle.Markup.Reference
import Restyle.Notice.Basic
import Restyle.Proofs.Cli.Agreement
import Restyle.Proofs.Cli.Alone
import Restyle.Proofs.Cli.Files
import Restyle.Proofs.Cli.Resolve
import Restyle.Proofs.Cli.Schedule
import Restyle.Proofs.Cli.Shared
import Restyle.Proofs.Cli.Verdict
import Restyle.Proofs.Edit.Acceptance
import Restyle.Proofs.Edit.Failure
import Restyle.Proofs.Edit.Forward
import Restyle.Proofs.Edit.Grammar
import Restyle.Proofs.Edit.History
import Restyle.Proofs.Edit.Listing
import Restyle.Proofs.Edit.Offset
import Restyle.Proofs.Edit.Order
import Restyle.Proofs.Edit.Places
import Restyle.Proofs.Edit.Range
import Restyle.Proofs.Edit.Splice
import Restyle.Proofs.Edit.Stamp
import Restyle.Proofs.Edit.Truncation
import Restyle.Proofs.File.Lineage
import Restyle.Proofs.File.Path
import Restyle.Proofs.File.Store
import Restyle.Proofs.Format.Answer
import Restyle.Proofs.Format.Course
import Restyle.Proofs.Format.Desk
import Restyle.Proofs.Format.Edit
import Restyle.Proofs.Format.Finish
import Restyle.Proofs.Format.Formattable
import Restyle.Proofs.Format.Log
import Restyle.Proofs.Format.Now
import Restyle.Proofs.Format.Prepare
import Restyle.Proofs.Format.Reason
import Restyle.Proofs.Format.Registry
import Restyle.Proofs.Format.Session
import Restyle.Proofs.Format.Stages
import Restyle.Proofs.Format.StandIn
import Restyle.Proofs.Format.Work
import Restyle.Proofs.Markup.Attribute
import Restyle.Proofs.Markup.Event
import Restyle.Proofs.Markup.Nesting
import Restyle.Proofs.Markup.Reference
import Restyle.Proofs.Markup.Unfinished
import Restyle.Proofs.Notice.Board
import Restyle.Proofs.Notice.Office
import Restyle.Proofs.Style.Cancelled
import Restyle.Proofs.Style.Chains
import Restyle.Proofs.Style.Fresh
import Restyle.Proofs.Style.HintRuns
import Restyle.Proofs.Style.Hints
import Restyle.Proofs.Style.InStep
import Restyle.Proofs.Style.Keys
import Restyle.Proofs.Style.Memory
import Restyle.Proofs.Style.Recent
import Restyle.Proofs.Style.Repeat
import Restyle.Proofs.Style.Run
import Restyle.Proofs.Style.Turns
import Restyle.Proofs.Text.Number
import Restyle.Proofs.Text.Utf16
import Restyle.Proofs.Text.Utf8
import Restyle.Proofs.Tool.Collapse
import Restyle.Proofs.Tool.Diagnostic
import Restyle.Proofs.Tool.Lines
import Restyle.Proofs.Tool.Report
import Restyle.Settings.Basic
import Restyle.Settings.Resolve
import Restyle.Style.Basic
import Restyle.Style.Chains
import Restyle.Style.Dump
import Restyle.Style.HintMemory
import Restyle.Style.Hints
import Restyle.Style.Memory
import Restyle.Style.Recent
import Restyle.Text.Blank
import Restyle.Text.Number
import Restyle.Text.Part
import Restyle.Text.Printable
import Restyle.Text.Quoted
import Restyle.Text.Span
import Restyle.Text.Utf16
import Restyle.Text.Utf8
import Restyle.Text.Word
import Restyle.Tool.Diagnostic
import Restyle.Tool.Invocation
import Restyle.Tool.Output
import Restyle.Tool.Reply
import Restyle.Tool.Scripted
import Restyle.Tool.StandIn
import Restyle.Yaml.Node
import Restyle.Yaml.Place
import Restyle.Yaml.Scalar
import Restyle.Yaml.Tag
import Restyle.Yaml.Text
import Restyle.Yaml.Token
import Restyle.Yaml.Value
import Restyle.Proofs.Style.Dump
import Restyle.Proofs.Json.Print
import Restyle.Proofs.Style.Json
import Restyle.Proofs.Args.Rendering
import Restyle.Proofs.Format.Lookup
import Restyle.Proofs.Cli.Whole
