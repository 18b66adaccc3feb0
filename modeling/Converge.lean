import Converge.Json.Reader
import Converge.Json.Printer
import Converge.Tree.Basic
import Converge.Tree.Path
import Converge.Time.Timestamp
import Converge.Time.Duration
import Converge.Object.Coordinate
import Converge.Schema.ParamValue
import Converge.Schema.Expand
import Converge.Schema.Wire
import Converge.Object.Basic
import Converge.Json.Patch
import Converge.Diff
import Converge.Store.Remote
import Converge.Store.Memory
import Converge.Store.Client
import Converge.Store.Scripted
import Converge.Lifecycle.Engine
import Converge.Settings.Sources
import Converge.Yaml.Printer
import Converge.Command.Run
import Converge.Main
import Converge.Proofs.Keyed
import Converge.Proofs.Text.Digits
import Converge.Proofs.Time.Calendar
import Converge.Proofs.Time.Universal
import Converge.Proofs.Time.Spelling
import Converge.Proofs.Time.Timestamp
import Converge.Proofs.Time.Rewriting
import Converge.Proofs.Schema.Outcome
import Converge.Proofs.Schema.Check
import Converge.Proofs.Schema.Matching
import Converge.Proofs.Schema.Declared
import Converge.Proofs.Schema.TreeForm
import Converge.Proofs.Object.TreeForm
import Converge.Proofs.Json.Canonical
import Converge.Proofs.Json.KeyPath
import Converge.Proofs.Json.Pointer
import Converge.Proofs.Diff.Slot
import Converge.Proofs.Json.Patch
import Converge.Proofs.Diff.Reach
import Converge.Proofs.Diff.Roots
import Converge.Proofs.Schema.LeafWire
import Converge.Proofs.Schema.WireForm
import Converge.Proofs.Diff.Cover
import Converge.Proofs.Diff.Record
import Converge.Proofs.Object.WireForm
import Converge.Proofs.Json.Lexeme
import Converge.Proofs.Json.Number
import Converge.Proofs.Json.Reader
import Converge.Proofs.Schema.Nesting
import Converge.Proofs.Object.Mutable
import Converge.Proofs.Store.Memory
import Converge.Proofs.Store.Client
import Converge.Proofs.Lifecycle.Work
import Converge.Proofs.Store.Managed
import Converge.Proofs.Lifecycle.Convergence
import Converge.Proofs.Lifecycle.Creation
import Converge.Proofs.Object.Identity
import Converge.Proofs.Lifecycle.Truthful
import Converge.Proofs.Schema.Reading
import Converge.Proofs.Schema.LeafShape
import Converge.Proofs.Schema.Agreement
import Converge.Proofs.Object.Configuration
import Converge.Proofs.Schema.RoundTrip
import Converge.Proofs.Tree.Same
import Converge.Proofs.Lifecycle.Deletion
import Converge.Proofs.Web.Address
import Converge.Proofs.Store.Remote
import Converge.Proofs.Lifecycle.Atomic
import Converge.Proofs.Store.Noted
import Converge.Proofs.Lifecycle.Polling
import Converge.Proofs.Lifecycle.CreationOutcome
import Converge.Proofs.Lifecycle.Requests
import Converge.Proofs.Lifecycle.Addressed
import Converge.Proofs.Lifecycle.Repetition
import Converge.Proofs.Diff.Order
import Converge.Proofs.Object.WireRoundTrip
import Converge.Proofs.Lifecycle.Blame
import Converge.Proofs.Diff.Ground
import Converge.Proofs.Object.Ground
import Converge.Proofs.Store.Identified
import Converge.Proofs.Lifecycle.Refusal
import Converge.Proofs.Store.Effect
import Converge.Proofs.Store.Assignment
import Converge.Proofs.Store.Consistent
import Converge.Proofs.Store.Stamped
import Converge.Proofs.Store.Replies
import Converge.Proofs.Lifecycle.DeletionOutcome
import Converge.Proofs.Lifecycle.RemoteOutcome
import Converge.Proofs.Diff.Apart
import Converge.Proofs.Object.Separate
import Converge.Proofs.Store.Merging
import Converge.Proofs.Lifecycle.Interleaving
import Converge.Proofs.Lifecycle.Rivals
import Converge.Proofs.Store.Content
import Converge.Proofs.Store.Countdown
import Converge.Proofs.Store.Submission
import Converge.Proofs.Json.Layout
import Converge.Proofs.Tree.JsonForm
import Converge.Proofs.Time.Duration
import Converge.Proofs.Command.Steps
import Converge.Proofs.Command.TrackingFile
import Converge.Proofs.Yaml.Reader
import Converge.Proofs.Schema.TreeNesting
import Converge.Proofs.Command.Errand
import Converge.Proofs.Command.Failure
import Converge.Proofs.Lifecycle.Recreation
import Converge.Proofs.Diff.Exact
import Converge.Proofs.Lifecycle.Refreshes
import Converge.Proofs.Lifecycle.Cancellation
import Converge.Proofs.Json.Frame
import Converge.Proofs.Store.Owned
import Converge.Proofs.Lifecycle.Destination
import Converge.Proofs.Lifecycle.Reassertion
import Converge.Proofs.Schema.Defect
import Converge.Proofs.Schema.Kept
import Converge.Proofs.Schema.Order
import Converge.Proofs.Diff.Document
import Converge.Proofs.Time.Universal
