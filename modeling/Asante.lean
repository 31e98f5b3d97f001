import Asante.Core.Program
import Asante.Core.Run
import Asante.Core.Pool
import Asante.Core.History
import Asante.Core.Dict
import Asante.Core.KeyedLog
import Asante.Core.FirstUses
import Asante.Core.TimedMap
import Asante.Core.Framing
import Asante.Core.Isolation
import Asante.Core.TextOrder
import Asante.Core.Refinement
import Asante.Core.Extended
import Asante.Core.Cells
import Asante.Core.Contract
import Asante.Core.Cost
import Asante.Core.Monitor
import Asante.Core.Books
import Asante.Core.Bystanders
import Asante.Model.Python
import Asante.Model.Ruhusa
import Asante.Model.Runtime
import Asante.Model.Approvals
import Asante.Model.Stores
import Asante.Model.World
import Asante.Model.Reliability
import Asante.Model.Tools
import Asante.Model.Delegation
import Asante.Model.Server
import Asante.Model.Main
import Asante.Model.Statements
import Asante.Model.Bridge
import Asante.Model.Clock
import Asante.Model.Identity
import Asante.Model.Http
import Asante.Model.Client
import Asante.Model.ApiModels
import Asante.Model.Config
import Asante.Model.Telemetry
import Asante.Theory.ApprovalTable
import Asante.Theory.ApprovalStore
import Asante.Theory.Authorization
import Asante.Theory.Lifecycle
import Asante.Theory.Discipline
import Asante.Theory.Ledger
import Asante.Theory.Provenance
import Asante.Theory.Decisions
import Asante.Theory.Outcomes
import Asante.Theory.Approving
import Asante.Theory.GuestOperations
import Asante.Theory.Dispatch
import Asante.Theory.Cache
import Asante.Theory.CachedReads
import Asante.Theory.Retry
import Asante.Theory.Issuance
import Asante.Theory.CreditSession
import Asante.Theory.Routing
import Asante.Theory.Instances
import Asante.Theory.Executions
import Asante.Theory.OnRecord
import Asante.Theory.Replays
import Asante.Theory.ExactlyOnce
import Asante.Theory.Mirroring
import Asante.Theory.Content
import Asante.Theory.Chronology
import Asante.Theory.Inbox
import Asante.Theory.OnBehalf
import Asante.Theory.Identities
import Asante.Theory.Authentication
import Asante.Theory.Footprints
import Asante.Theory.Unasked
import Asante.Theory.Confinement
import Asante.Theory.Contracts
import Asante.Theory.Tasks
import Asante.Theory.Conformance
import Asante.Theory.Restarts
import Asante.Theory.Budget
import Asante.Theory.Metering
import Asante.Theory.Reconciliation
import Asante.Theory.Bookkeeping
