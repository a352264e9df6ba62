import MsgRiver.Lib.Run
import MsgRiver.Lib.History
import MsgRiver.Lib.Pool
import MsgRiver.Lib.Reader
import MsgRiver.Lib.Table
import MsgRiver.Lib.Sql
import MsgRiver.Lib.Sha256
import MsgRiver.Lib.Ascii
import MsgRiver.Lib.Checked
import MsgRiver.Lib.Calendar
import MsgRiver.Lib.Result
import MsgRiver.Lib.Decimal
import MsgRiver.Lib.Text
import MsgRiver.Lib.Netstring
import MsgRiver.Lib.Lines
import MsgRiver.Lib.Chunks
import MsgRiver.Lib.Loops
import MsgRiver.Lib.SortDedup
import MsgRiver.Lib.Fips180
import MsgRiver.Lib.Json
import MsgRiver.Lib.JsonText
import MsgRiver.Lib.JsonGrammar
import MsgRiver.Lib.JsonDialect
import MsgRiver.Lib.JsonEncoding
import MsgRiver.Lib.JsonNesting
import MsgRiver.Lib.Bytes
import MsgRiver.Lib.Framing
import MsgRiver.Lib.Wire
import MsgRiver.Lib.Quota
import MsgRiver.Lib.Chain
import MsgRiver.Lib.Process
import MsgRiver.Lib.Disk
import MsgRiver.Lib.Verdict
import MsgRiver.Core.Mac
import MsgRiver.Core.Jitter
import MsgRiver.Core.Uniform
import MsgRiver.Core.Retry
import MsgRiver.Core.Bounded
import MsgRiver.Core.Digest
import MsgRiver.Core.Canon
import MsgRiver.Store.Schema
import MsgRiver.Store.Catalog
import MsgRiver.Store.Migrations
import MsgRiver.Store.Upgrades
import MsgRiver.Store.Refusals
import MsgRiver.Store.Queue
import MsgRiver.Store.Status
import MsgRiver.Store.Rows
import MsgRiver.Store.Calls
import MsgRiver.Store.Budget
import MsgRiver.Store.Lifecycle
import MsgRiver.Store.Marks
import MsgRiver.Store.Inbound
import MsgRiver.Store.Intent
import MsgRiver.Connector.Exchange
import MsgRiver.Connector.Ntfy
import MsgRiver.Connector.Whatsapp
import MsgRiver.Connector.Endpoint
import MsgRiver.Connector.Outbound
import MsgRiver.Connector.Framing
import MsgRiver.Connector.RetryAfter
import MsgRiver.Connector.Driver
import MsgRiver.Service.Dispatch
import MsgRiver.Service.Effects
import MsgRiver.Service.Outcomes
import MsgRiver.Service.Upgrade
import MsgRiver.Service.Arguments
import MsgRiver.Service.Callback
import MsgRiver.Service.Webhook
import MsgRiver.Service.Subscription
import MsgRiver.Service.Local
import MsgRiver.Service.Startup
import MsgRiver.Service.Framing
import MsgRiver.Service.Chunking
import MsgRiver.Service.Lengths
import MsgRiver.Service.Requests
import MsgRiver.Service.Deliverable
import MsgRiver.Service.OwnerLock
import MsgRiver.Service.Processes
import MsgRiver.Service.Sessions
import MsgRiver.Service.Rounds
import MsgRiver.Client.Submit
import MsgRiver.Client.Escape
import MsgRiver.Journal.Clock
import MsgRiver.Journal.Envelope
import MsgRiver.Journal.Addressed
import MsgRiver.Journal.Members
import MsgRiver.Journal.Checkpoint
import MsgRiver.Journal.Command
import MsgRiver.Journal.CommandRecord
import MsgRiver.Journal.CommandAgreement
import MsgRiver.Journal.Replay
import MsgRiver.Journal.Image
import MsgRiver.Journal.Sizes
import MsgRiver.Journal.Append
import MsgRiver.Journal.History
import MsgRiver.Journal.Authority
import MsgRiver.Journal.Obligations
import MsgRiver.Journal.Cells
import MsgRiver.Journal.Course
import MsgRiver.Journal.Exit
import MsgRiver.Journal.Holds
import MsgRiver.Journal.Publish
import MsgRiver.Journal.Writer
import MsgRiver.Journal.Pointer
import MsgRiver.Journal.Recovery
import MsgRiver.Journal.KeyPair
import MsgRiver.Protocol.Path
import MsgRiver.Protocol.StrictJson
import MsgRiver.Keys.Manifest
import MsgRiver.Keys.Snapshot
import MsgRiver.Keys.Directory
import MsgRiver.PhaseZero.JsonParser
import MsgRiver.PhaseZero.JsonReading
import MsgRiver.PhaseZero.JsonAccepts
import MsgRiver.PhaseZero.Callback
import MsgRiver.PhaseZero.Dedup
import MsgRiver.PhaseZero.Snapshot
import MsgRiver.PhaseZero.Kernel
import MsgRiver.PhaseZero.Loop
import MsgRiver.PhaseZero.Ledger
import MsgRiver.PhaseZero.Serial
import MsgRiver.PhaseZero.Evidence
import MsgRiver.PhaseZero.Lease
