import Paywatch.Backoff
import Paywatch.Chain.Address
import Paywatch.Chain.Amount
import Paywatch.Chain.Block
import Paywatch.Chain.Document
import Paywatch.Chain.Height
import Paywatch.Chain.Quantity
import Paywatch.Chain.Token
import Paywatch.Data.Basic
import Paywatch.Data.Rebuild
import Paywatch.Data.Record
import Paywatch.Engine.Basic
import Paywatch.Engine.Document
import Paywatch.Engine.Launch
import Paywatch.Engine.Status
import Paywatch.Event.Decode
import Paywatch.Event.Document
import Paywatch.Event.Extract
import Paywatch.Event.Kind
import Paywatch.Event.Payload
import Paywatch.Event.Target
import Paywatch.Flow.Attempt
import Paywatch.Flow.Basic
import Paywatch.Head.Advance
import Paywatch.Head.Follow
import Paywatch.Head.Message
import Paywatch.Head.Range
import Paywatch.Head.Window
import Paywatch.Ingest.Block
import Paywatch.Ingest.CatchUp
import Paywatch.Ingest.Keeper
import Paywatch.Ingest.Worker
import Paywatch.Json.Reader
import Paywatch.Json.Writer
import Paywatch.Keccak
import Paywatch.Ledger.Basic
import Paywatch.Ledger.Call
import Paywatch.Ledger.Commit
import Paywatch.Ledger.Lease
import Paywatch.Main
import Paywatch.Matching.Plan
import Paywatch.Matching.Settlement
import Paywatch.Node.Basic
import Paywatch.Node.Rpc
import Paywatch.Node.Scripted
import Paywatch.Notice.Basic
import Paywatch.Notice.Bus
import Paywatch.Notice.Document
import Paywatch.Notice.Webhook
import Paywatch.Order.Basic
import Paywatch.Order.Deposit
import Paywatch.Order.Document
import Paywatch.Order.Policy
import Paywatch.Order.Route
import Paywatch.Proofs.Basic
import Paywatch.Proofs.Chain.Heights
import Paywatch.Proofs.Data.ReadBack
import Paywatch.Proofs.Data.Written
import Paywatch.Proofs.Event.Extract
import Paywatch.Proofs.Event.Faithful
import Paywatch.Proofs.Event.Reading
import Paywatch.Proofs.Event.Words
import Paywatch.Proofs.Flow.Conduct
import Paywatch.Proofs.Flow.Contract
import Paywatch.Proofs.Flow.Rules
import Paywatch.Proofs.Flow.Surroundings
import Paywatch.Proofs.Flow.Turns
import Paywatch.Proofs.Head.Branch
import Paywatch.Proofs.Head.Contents
import Paywatch.Proofs.Head.ForkPoint
import Paywatch.Proofs.Head.Linked
import Paywatch.Proofs.Head.Reach
import Paywatch.Proofs.Head.Stream
import Paywatch.Proofs.Head.Window
import Paywatch.Proofs.Ingest.Block
import Paywatch.Proofs.Ingest.Canonical
import Paywatch.Proofs.Ingest.CatchingUp
import Paywatch.Proofs.Ingest.Changes
import Paywatch.Proofs.Ingest.ExactDepth
import Paywatch.Proofs.Ingest.Isolation
import Paywatch.Proofs.Ingest.Jobs
import Paywatch.Proofs.Ingest.OutOfReach
import Paywatch.Proofs.Ingest.Placing
import Paywatch.Proofs.Ingest.Playing
import Paywatch.Proofs.Ingest.Proposal
import Paywatch.Proofs.Ingest.Pursuit
import Paywatch.Proofs.Ingest.Recorded
import Paywatch.Proofs.Ingest.Remembered
import Paywatch.Proofs.Ingest.Replayed
import Paywatch.Proofs.Ingest.Roster
import Paywatch.Proofs.Ingest.Rounds
import Paywatch.Proofs.Ingest.Session
import Paywatch.Proofs.Ingest.SingleCredit
import Paywatch.Proofs.Ingest.Territory
import Paywatch.Proofs.Ingest.Unrefused
import Paywatch.Proofs.Ledger.Accounts
import Paywatch.Proofs.Ledger.Apart
import Paywatch.Proofs.Ledger.Closing
import Paywatch.Proofs.Ledger.Commit
import Paywatch.Proofs.Ledger.Consumers
import Paywatch.Proofs.Ledger.Duplicates
import Paywatch.Proofs.Ledger.Fencing
import Paywatch.Proofs.Ledger.Level
import Paywatch.Proofs.Ledger.Newest
import Paywatch.Proofs.Ledger.Parts
import Paywatch.Proofs.Ledger.Place
import Paywatch.Proofs.Ledger.Recordings
import Paywatch.Proofs.Ledger.Settlement
import Paywatch.Proofs.Ledger.Writes
import Paywatch.Proofs.Matching.Amounts
import Paywatch.Proofs.Matching.Bulletin
import Paywatch.Proofs.Matching.Bureau
import Paywatch.Proofs.Matching.Distinct
import Paywatch.Proofs.Matching.Greedy
import Paywatch.Proofs.Matching.Interleaving
import Paywatch.Proofs.Matching.Listing
import Paywatch.Proofs.Matching.Opening
import Paywatch.Proofs.Matching.Orderly
import Paywatch.Proofs.Matching.Plan
import Paywatch.Proofs.Matching.Prudence
import Paywatch.Proofs.Matching.Replanning
import Paywatch.Proofs.Matching.Reports
import Paywatch.Proofs.Matching.Tasks
import Paywatch.Proofs.Matching.Trackers
import Paywatch.Proofs.Matching.Undisturbed
import Paywatch.Proofs.Order.Destinations
import Paywatch.Proofs.Order.Keys
import Paywatch.Proofs.Order.Ranking
import Paywatch.Proofs.Provider.Failover
import Paywatch.Proofs.Provider.Gas
import Paywatch.Proofs.Provider.Health
import Paywatch.Proofs.Provider.History
import Paywatch.Proofs.Raiden.Channels
import Paywatch.Proofs.Raiden.ExactlyOnce
import Paywatch.Proofs.Raiden.Reading
import Paywatch.Proofs.Raiden.Recording
import Paywatch.Proofs.Raiden.Tokens
import Paywatch.Proofs.Text.Hexadecimal
import Paywatch.Proofs.Text.Numerals
import Paywatch.Proofs.Time.Calendar
import Paywatch.Proofs.Time.Text
import Paywatch.Proofs.Transfer.Custody
import Paywatch.Proofs.Transfer.Lifecycle
import Paywatch.Proofs.Transfer.Movements
import Paywatch.Provider.Document
import Paywatch.Provider.Failover
import Paywatch.Provider.Gas
import Paywatch.Provider.Registry
import Paywatch.Raiden.History
import Paywatch.Raiden.Payment
import Paywatch.Raiden.Poller
import Paywatch.Rehearsal.Act
import Paywatch.Rehearsal.Basic
import Paywatch.Rehearsal.Run
import Paywatch.Rehearsal.Stage
import Paywatch.Script.EngineRoom
import Paywatch.Script.Faults
import Paywatch.Script.Fields
import Paywatch.Script.Names
import Paywatch.Script.Nodes
import Paywatch.Script.Scene
import Paywatch.Script.Shapes
import Paywatch.Script.Stored
import Paywatch.Script.Workshop.Basic
import Paywatch.Script.Workshop.Ingesting
import Paywatch.Script.Workshop.Leases
import Paywatch.Script.Workshop.Providers
import Paywatch.Script.Workshop.Run
import Paywatch.Script.Workshop.Settling
import Paywatch.Script.Workshop.Tracking
import Paywatch.Settings.Basic
import Paywatch.Settings.Document
import Paywatch.Sorting
import Paywatch.Status
import Paywatch.Table
import Paywatch.Text.Blank
import Paywatch.Text.Bytes
import Paywatch.Text.Digits
import Paywatch.Text.Lowercase
import Paywatch.Text.Quoted
import Paywatch.Time.Instant
import Paywatch.Time.Text
import Paywatch.Transfer.Basic
import Paywatch.Transfer.Classify
import Paywatch.Transfer.Document
import Paywatch.Transfer.Lifecycle
import Paywatch.Ulid
import Paywatch.Web.Status
import Paywatch.Web.Talk
import Paywatch.Yaml.Reader
import Paywatch.Yaml.Scalar
