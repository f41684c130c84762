import SicDebugger.AddressRange
import SicDebugger.Binary64.Basic
import SicDebugger.Binary64.Decimal
import SicDebugger.Binary64.Shortest
import SicDebugger.Configuration.Basic
import SicDebugger.Configuration.FileTree
import SicDebugger.Configuration.SocketAddress
import SicDebugger.Controller.Activity
import SicDebugger.Controller.Delay
import SicDebugger.Controller.Event
import SicDebugger.Controller.Request
import SicDebugger.Controller.Settings
import SicDebugger.Controller.State
import SicDebugger.Diagnostics.Basic
import SicDebugger.Diagnostics.Table
import SicDebugger.Error
import SicDebugger.ExecutionState
import SicDebugger.Float48
import SicDebugger.Json.Basic
import SicDebugger.Json.Number
import SicDebugger.Json.Reader
import SicDebugger.Json.Record
import SicDebugger.Json.Writer
import SicDebugger.Listing.Basic
import SicDebugger.Listing.Index
import SicDebugger.Main
import SicDebugger.Path
import SicDebugger.Proofs.Coherence
import SicDebugger.Proofs.Display
import SicDebugger.Proofs.FailedLoads
import SicDebugger.Proofs.Freshness
import SicDebugger.Proofs.Halt
import SicDebugger.Proofs.Handle
import SicDebugger.Proofs.Lifetime
import SicDebugger.Proofs.Origins
import SicDebugger.Proofs.Refusal
import SicDebugger.Proofs.Reload
import SicDebugger.Proofs.Serialisation
import SicDebugger.Proofs.Stepping
import SicDebugger.Proofs.Tidings
import SicDebugger.Proofs.Transitions
import SicDebugger.Proofs.Verdict
import SicDebugger.Registers
import SicDebugger.Rehearsal.Clock
import SicDebugger.Rehearsal.Script
import SicDebugger.Rehearsal.Stage
import SicDebugger.Session
import SicDebugger.Simulator.Client
import SicDebugger.Simulator.Mode
import SicDebugger.Simulator.Reply
import SicDebugger.Simulator.Request
import SicDebugger.Simulator.Status
import SicDebugger.Text.Blank
import SicDebugger.Text.Numeral
import SicDebugger.Text.Printable
import SicDebugger.Text.Quoted
import SicDebugger.Text.Split
import SicDebugger.View.Hub
import SicDebugger.View.Link
import SicDebugger.View.Message
import SicDebugger.View.Request
import SicDebugger.Watch
import SicDebugger.Proofs.Findings
import SicDebugger.Proofs.PathText
import SicDebugger.Proofs.Refreshes
import SicDebugger.Proofs.Routes
import SicDebugger.Proofs.Buckets
import SicDebugger.Proofs.Sources
import SicDebugger.Proofs.OwnKeys
import SicDebugger.Proofs.Outcomes
import SicDebugger.Proofs.Denials
import SicDebugger.Proofs.HubRun
import SicDebugger.Proofs.Accounts
import SicDebugger.Proofs.Books
import SicDebugger.Proofs.Rejections
import SicDebugger.Proofs.Wire
import SicDebugger.Proofs.MemoryReads
import SicDebugger.Proofs.Highlight
import SicDebugger.Proofs.LoadErrors
import SicDebugger.Proofs.Toggles
import SicDebugger.Proofs.CheckOrder
import SicDebugger.Proofs.PatternText
import SicDebugger.Proofs.Decoding
import SicDebugger.Proofs.Changes
import SicDebugger.Proofs.Omissions
import SicDebugger.Proofs.FailureStatus
import SicDebugger.Proofs.WatchHistory
import SicDebugger.Proofs.Elements
import SicDebugger.Proofs.EmptyBuckets
import SicDebugger.Proofs.RowAddresses
import SicDebugger.Proofs.PatternReading
import SicDebugger.Proofs.NormalTexts
