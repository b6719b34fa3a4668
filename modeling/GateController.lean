import GateController.Effects.Prog
import GateController.Effects.Protocol
import GateController.Effects.Trace
import GateController.Effects.System
import GateController.Data.Table
import GateController.Data.IsoTime
import GateController.Data.Numeral
import GateController.Data.IsoOrder
import GateController.Data.Json
import GateController.Data.Recency
import GateController.Data.Cyclic
import GateController.Data.Paging
import GateController.Models
import GateController.Store.Schema
import GateController.Store.Pending
import GateController.Store.Operations
import GateController.Store.Cases
import GateController.Store.Recovery
import GateController.Store.Invariant
import GateController.Store.Frame
import GateController.Store.Affinity
import GateController.Store.Outbox
import GateController.Store.Settled
import GateController.Store.Waiting
import GateController.Store.Timestamps
import GateController.Runtime.Effects
import GateController.Relay.Controller
import GateController.Actuation.Coordinator
import GateController.Commands.Executor
import GateController.Processing.Matching
import GateController.Processing.Policy
import GateController.Processing.Processor
import GateController.Runtime.Machine
import GateController.Runtime.Migration
import GateController.Runtime.Frame
import GateController.Runtime.Watch
import GateController.Runtime.Coherence
import GateController.Relay.Discipline
import GateController.Actuation.Discipline
import GateController.Commands.Discipline
import GateController.Commands.Parsing
import GateController.Processing.Discipline
import GateController.Processing.Keys
import GateController.Processing.Debts
import GateController.Processing.Released
import GateController.Runtime.Base
import GateController.Runtime.History
import GateController.Relay.Shutdown
import GateController.Relay.Latch
import GateController.Actuation.Ledger
import GateController.Actuation.AtMostOnce
import GateController.Actuation.Authority
import GateController.Actuation.Refused
import GateController.Worker.Queue
import GateController.Worker.QueueDiscipline
import GateController.Worker.QueueOrder
import GateController.Worker.Startup
import GateController.Worker.Collector
import GateController.Worker.Bursts
import GateController.Updater.Release
import GateController.Updater.Discipline
import GateController.Updater.Pending
import GateController.Updater.Legacy
import GateController.Updater.Retention
import GateController.Worker.Handler
import GateController.Worker.HandlerDiscipline
import GateController.Worker.OneUpload
import GateController.Worker.FirstFrame
import GateController.Worker.Custody
import GateController.Worker.Orphans
import GateController.Data.Fields
import GateController.Data.Search
import GateController.Effects.Faults
import GateController.Delivery.Telemetry
import GateController.Delivery.Operations
import GateController.Delivery.Rows
import GateController.Delivery.Worker
import GateController.Delivery.Discipline
import GateController.Delivery.Fairness
import GateController.Delivery.Shape
import GateController.Delivery.Wire
import GateController.Delivery.Traces
import GateController.Delivery.Session
import GateController.Delivery.Attach
import GateController.Delivery.Export
import GateController.Recognition.Client
import GateController.Recognition.Sessions
import GateController.HotStream.Parser
import GateController.HotStream.Chunking
import GateController.HotStream.Segments
import GateController.HotStream.Ring
import GateController.HotStream.Materialise
import GateController.Data.Csv
import GateController.Data.Text
import GateController.Data.Wall
import GateController.Camera.Correlator
import GateController.Camera.Duplicates
import GateController.Camera.Ledger
import GateController.Camera.Webhook
import GateController.Effects.Crash
import GateController.Effects.Fallible
import GateController.Data.Files
import GateController.Media.Token
import GateController.Media.Acceptance
import GateController.Media.Authorize
import GateController.Media.Grants
import GateController.Authorisation.Cache
import GateController.Authorisation.Replacement
import GateController.Authorisation.Reload
import GateController.Media.Environment
import GateController.Media.Grammar
import GateController.Media.Refresh
import GateController.Media.AtomicWrite
import GateController.Media.Staged
import GateController.Media.RoundTrip
import GateController.Media.Prepared
import GateController.Media.AllOrNothing
import GateController.Store.Legacy
import GateController.Store.Migration
import GateController.Delivery.Acknowledged
import GateController.Delivery.Identity
import GateController.Delivery.Agreement
import GateController.Delivery.Evidence
import GateController.Media.Publication
import GateController.Effects.Alone
import GateController.Media.Migration
import GateController.Media.Rerun
import GateController.Effects.Expand
import GateController.Processing.Gated
import GateController.Recognition.Bounded
import GateController.Recognition.BoundedDiscipline
import GateController.Recognition.SlotAccount
import GateController.Recognition.Closing
import GateController.Recognition.Readings
import GateController.Recognition.NeverStuck
import GateController.Effects.Erase
import GateController.Processing.Trace
import GateController.Processing.Traced
import GateController.Processing.Transparent
import GateController.Effects.Outcome
import GateController.Processing.Told
