import LintDebt.Candidates
import LintDebt.Changes
import LintDebt.Command
import LintDebt.Command.Arguments
import LintDebt.Config
import LintDebt.Date.Basic
import LintDebt.Date.Text
import LintDebt.Decay
import LintDebt.Digest.Sha256
import LintDebt.FileTree
import LintDebt.Json.Basic
import LintDebt.Json.Parser
import LintDebt.Json.Printer
import LintDebt.Json.Record
import LintDebt.Ledger.Basic
import LintDebt.Ledger.File
import LintDebt.Ledger.Memory
import LintDebt.LintResult
import LintDebt.Log
import LintDebt.Main
import LintDebt.Path
import LintDebt.Proofs.Candidates
import LintDebt.Proofs.Changes
import LintDebt.Proofs.Date.Calendar
import LintDebt.Proofs.Date.RoundTrip
import LintDebt.Proofs.FileTree
import LintDebt.Proofs.Json.Extension
import LintDebt.Proofs.Json.Record
import LintDebt.Proofs.Json.RoundTrip
import LintDebt.Proofs.Ledger.Coherence
import LintDebt.Proofs.Ledger.Faithful
import LintDebt.Proofs.Ledger.Invariant
import LintDebt.Proofs.Ledger.Operations
import LintDebt.Proofs.Log.Codec
import LintDebt.Proofs.Log.Continued
import LintDebt.Proofs.Run.File
import LintDebt.Proofs.Run.Files
import LintDebt.Proofs.Run.Formatter
import LintDebt.Proofs.Run.History
import LintDebt.Proofs.Run.Schedule
import LintDebt.Proofs.Step
import LintDebt.Proofs.Text.Digits
import LintDebt.Proofs.Text.Lines
import LintDebt.Proofs.Todo.Batch
import LintDebt.Report.Console
import LintDebt.Report.Format
import LintDebt.Report.Sarif
import LintDebt.Report.Style
import LintDebt.Report.Table
import LintDebt.Run
import LintDebt.Settings
import LintDebt.Severity
import LintDebt.Span
import LintDebt.Text.Blank
import LintDebt.Text.Digits
import LintDebt.Text.Lines
import LintDebt.Text.Split
import LintDebt.Text.Width
import LintDebt.Text.WidthTable
import LintDebt.Text.Wrap
import LintDebt.Todo.Basic
import LintDebt.Todo.Batch
import LintDebt.Todo.Schema
import LintDebt.Toml.Basic
import LintDebt.Toml.Document
import LintDebt.Toml.Lexeme
import LintDebt.Toml.Printer
import LintDebt.Toml.Table
import LintDebt.Proofs.Log.Live
import LintDebt.Proofs.Log.LiveSet
import LintDebt.Proofs.FileTree.SameBut
import LintDebt.Proofs.Ledger.Appending
import LintDebt.Proofs.Log.Effective
import LintDebt.Proofs.Ledger.Account
import LintDebt.Proofs.Ledger.Compaction
import LintDebt.Proofs.Run.Account
import LintDebt.Proofs.Alike
import LintDebt.Proofs.Run.Simulation
import LintDebt.Proofs.Run.MapLedger
import LintDebt.Proofs.Config
import LintDebt.Proofs.Ledger.Twins
import LintDebt.Proofs.Run.Requests
import LintDebt.Proofs.Ledger.Isolation
import LintDebt.Proofs.Run.Confinement
import LintDebt.Proofs.Run.Isolation
import LintDebt.Proofs.Run.Update
import LintDebt.Proofs.Run.Repetition
import LintDebt.Proofs.Run.Failure
import LintDebt.Proofs.Run.Clearing
import LintDebt.Proofs.Ledger.Memory
import LintDebt.Proofs.Run.Refinement
import LintDebt.Proofs.Run.Shares
import LintDebt.Proofs.Run.Order
import LintDebt.Proofs.Ledger.Reading
import LintDebt.Proofs.Report.Json
import LintDebt.Proofs.Report.Console
import LintDebt.Proofs.Run.Verdict
import LintDebt.Proofs.Decay
import LintDebt.Proofs.Path
import LintDebt.Proofs.Changes.Effect
import LintDebt.Proofs.Ledger.Sorting
import LintDebt.Proofs.Run.Agreement
import LintDebt.Proofs.Json.Indented
import LintDebt.Proofs.Policy
import LintDebt.Proofs.Toml.Lexeme
import LintDebt.Proofs.Toml.Document
import LintDebt.Proofs.Command
import LintDebt.Proofs.Text.Bytes
import LintDebt.Proofs.Path.Resolution
import LintDebt.Proofs.Candidates.Extraction
import LintDebt.Proofs.Todo.Identity
import LintDebt.Proofs.Todo.Indexed
import LintDebt.Proofs.Text.Trim
import LintDebt.Proofs.Text.Wrap
import LintDebt.Proofs.Report.Rows
import LintDebt.Proofs.Report.Shown
import LintDebt.Proofs.Report.Style
import LintDebt.Proofs.Report.Color
import LintDebt.Proofs.Text.Width
import LintDebt.Proofs.Report.Wrap
import LintDebt.Proofs.Report.Lines
import LintDebt.Proofs.Report.Sarif
import LintDebt.Proofs.Report.Layout
import LintDebt.Proofs.Report.Wrapping
