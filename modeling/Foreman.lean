import Foreman.Text.Blank
import Foreman.Text.Search
import Foreman.Text.Letter
import Foreman.Text.Word
import Foreman.Json.Printer
import Foreman.Json.Reader
import Foreman.Json.Record
import Foreman.Time.Span
import Foreman.Time.Instant
import Foreman.Fault
import Foreman.Task.Document
import Foreman.Verdict
import Foreman.Redaction.Basic
import Foreman.Directive
import Foreman.Idle
import Foreman.Notice.Queue
import Foreman.Files.Program
import Foreman.Store.File
import Foreman.Run.Drive
import Foreman.Executor.Step
import Foreman.Rehearsal.Script
import Foreman.Settings.File
import Foreman.Child.Launch
import Foreman.Rehearsal.Child
import Foreman.Git.Verification
import Foreman.Git.Workspace
import Foreman.Rehearsal.Git
import Foreman.CommandLine.Hosting
import Foreman.Rehearsal.Host
import Foreman.Main
import Foreman.Rehearsal.Cue
import Foreman.Proofs.Executor.Transition
import Foreman.Proofs.Executor.SingleFlight
import Foreman.Proofs.Run.Progress
import Foreman.Proofs.Redaction.Credential
import Foreman.Proofs.Run.FinalStatus
import Foreman.Proofs.Executor.Calls
import Foreman.Proofs.Executor.Barrier
import Foreman.Proofs.Executor.Floor
import Foreman.Proofs.Executor.Dispatch
import Foreman.Proofs.Redaction.Hiding
import Foreman.Proofs.Redaction.Stability
import Foreman.Proofs.Executor.Controls
import Foreman.Proofs.Executor.Restart
import Foreman.Proofs.Notice.Delivery
import Foreman.Proofs.Run.Disclosure
import Foreman.Proofs.Redaction.Exchange
import Foreman.Proofs.Run.Quotation
import Foreman.Proofs.Run.Indifference
import Foreman.Proofs.Report.Layout
import Foreman.Proofs.Report.Stream
import Foreman.Proofs.Report.Acceptance
import Foreman.Proofs.Json.Number
import Foreman.Proofs.Json.Pretty
import Foreman.Proofs.Time.Instant
import Foreman.Proofs.Json.Kept
import Foreman.Proofs.Task.Document
import Foreman.Proofs.Files.Tree
import Foreman.Proofs.Files.Replacement
import Foreman.Proofs.Store.File
import Foreman.Proofs.Store.Agreement
import Foreman.Proofs.Store.Interruption
import Foreman.Proofs.Store.Overlap
import Foreman.Proofs.Settings.File
import Foreman.Proofs.Run.Verification
import Foreman.Proofs.Run.Unwinding
import Foreman.Proofs.Run.Record
import Foreman.Proofs.Notice.Handles
import Foreman.Proofs.CommandLine.Execution
import Foreman.Proofs.Executor.Polling
import Foreman.Proofs.Executor.Waiting
import Foreman.Proofs.Store.History
import Foreman.Proofs.Idle
import Foreman.Proofs.Report.Slicing
import Foreman.Proofs.Git.Preparation
import Foreman.Proofs.Task.Order
import Foreman.Proofs.Child.Capture
import Foreman.Proofs.Verdict
import Foreman.Proofs.Settings.Environment
import Foreman.Proofs.CommandLine.ExitCode
