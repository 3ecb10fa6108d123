import Cameo.Library.Keyed
import Cameo.Library.Ordered
import Cameo.Library.Patch
import Cameo.Library.Run
import Cameo.Library.Shell
import Cameo.Library.Fallible
import Cameo.Library.Durable
import Cameo.Library.StableOrder
import Cameo.Library.Subslice
import Cameo.Library.Lines
import Cameo.Library.Trim
import Cameo.Library.Champion
import Cameo.Library.FixedWindow
import Cameo.Json
import Cameo.Clock
import Cameo.Command
import Cameo.DisplayedCommand
import Cameo.Text
import Cameo.Float
import Cameo.Placement.Topology
import Cameo.Placement.Model
import Cameo.Placement.Plan
import Cameo.Placement.LlamaServer
import Cameo.Placement.Router
import Cameo.Placement.Mesh
import Cameo.Placement.Description
import Cameo.Store.Directory
import Cameo.Store.EndpointStore
import Cameo.Store.Durability
import Cameo.Store.Atomicity
import Cameo.Store.Journal
import Cameo.Store.Archive
import Cameo.Gateway.Chunked
import Cameo.Gateway.BackendResponse
import Cameo.Gateway.Streaming
import Cameo.Gateway.OpenAi
import Cameo.Gateway.Drain
import Cameo.Gateway.Cancellation
import Cameo.Supervisor.Process
import Cameo.Supervisor.Endpoint
import Cameo.Supervisor.Lifecycle
import Cameo.Supervisor.Admission
import Cameo.Supervisor.Exactness
import Cameo.Supervisor.Lease
import Cameo.Supervisor.State
import Cameo.Supervisor.Start
import Cameo.Supervisor.Stages
import Cameo.Supervisor.LeaseTable
import Cameo.Supervisor.Operations
import Cameo.Supervisor.System
import Cameo.Supervisor.Effects
import Cameo.Supervisor.Ports
import Cameo.Supervisor.Residency
import Cameo.Supervisor.Eviction
import Cameo.Supervisor.FailedStart
import Cameo.Supervisor.Persistence
import Cameo.Supervisor.LeaseAgreement
import Cameo.Supervisor.Reopening
import Cameo.Supervisor.Shutdown
import Cameo.Supervisor.Intent
import Cameo.Supervisor.Readiness
import Cameo.Supervisor.Survival
import Cameo.Supervisor.Entries
import Cameo.Supervisor.Writers
import Cameo.Supervisor.Interleaving
import Cameo.Supervisor.Availability
import Cameo.Daemon.ModelRequest
import Cameo.Daemon.Sessions
import Cameo.Daemon.Serve
import Cameo.Daemon.Planning
import Cameo.Daemon.ServingKey
import Cameo.Daemon.CpuStart
import Cameo.Daemon.EnsureVram
import Cameo.Daemon.Commits
import Cameo.Daemon.Requests
import Cameo.Daemon.StaleSweep
import Cameo.Daemon.BoardAgreement
import Cameo.Daemon.System
import Cameo.Daemon.Recovery
import Cameo.Daemon.Deadlines
import Cameo.Update.Layout
import Cameo.Update.Manifest
import Cameo.Update.Transaction
import Cameo.Update.Phases
import Cameo.Update.Courses
import Cameo.Update.Consistency
import Cameo.Update.Machine
import Cameo.Update.Terminal
import Cameo.Update.Rerun
import Cameo.Update.Resume
import Cameo.Update.PriorSlot
import Cameo.Update.Restores
import Cameo.Update.Snapshot
import Cameo.Update.Reapply
import Cameo.Address
import Cameo.Bytes
import Cameo.Daemon.KeyRing
import Cameo.Daemon.Access
import Cameo.Hub.Registration
import Cameo.Hub.StateFile
import Cameo.Hub.Farm
import Cameo.Hub.Roster
import Cameo.Hub.Eviction
import Cameo.Hub.Pairing
import Cameo.Hub.Reload
import Cameo.Hub.Identities
import Cameo.Hub.Restore
import Cameo.Hub.Atomicity
import Cameo.Hub.Crash
import Cameo.Hub.Heartbeat
import Cameo.Hub.DispatchBody
import Cameo.Hub.Admission
import Cameo.Hub.Booking
import Cameo.Gateway.Connections
import Cameo.Supervisor.LeaseTruth
import Cameo.Supervisor.RestartBudget
import Cameo.Hub.HeldVram
import Cameo.Placement.Fleet
import Cameo.Placement.LiveRoute
import Cameo.Placement.TopCard
import Cameo.Placement.Budget
import Cameo.Placement.Ceiling
import Cameo.Placement.Agents
import Cameo.Placement.AgentPorts
import Cameo.Path
import Cameo.Update.Bundle
import Cameo.Update.Builder
import Cameo.Update.Readers
import Cameo.Update.Installable
import Cameo.Library.FileTree
import Cameo.Update.Simulator
import Cameo.Update.Simulator.Boots
import Cameo.Update.Simulator.Generations
import Cameo.Update.Simulator.Restaging
import Cameo.Report.Facts
import Cameo.Report.Submission
import Cameo.Report.Intake
import Cameo.Report.Fields
import Cameo.Report.Agreement
import Cameo.Http.Head
import Cameo.Http.Target
import Cameo.Http.Incoming
import Cameo.Http.Framing
import Cameo.Http.Rendering
import Cameo.Http.Field
import Cameo.Http.Response
import Cameo.Gateway.Relay
import Cameo.Gateway.Upstream
import Cameo.Daemon.Addressable
import Cameo.Placement.MeshChoice
import Cameo.Placement.RosterOrder
import Cameo.Placement.FleetFit
import Cameo.Placement.Offload
import Cameo.Placement.ServedContext
import Cameo.Placement.SingleCard
import Cameo.Placement.ServingKey
import Cameo.Daemon.RateWindows
import Cameo.Daemon.SessionAuthority
import Cameo.Hub.PairingStore
import Cameo.Hub.Credential
import Cameo.Hub.Agent
import Cameo.Hub.PairRoute
import Cameo.Hub.Fleet
import Cameo.Hub.Custody
import Cameo.Hub.Recognition
import Cameo.Hub.RoutedModel
import Cameo.Library.Quoting
import Cameo.Hub.CallbackGuard
import Cameo.Authority
import Cameo.Placement.RpcLayout
import Cameo.Hub.Curl
import Cameo.Library.KeyMatch
import Cameo.Detect.Attribution
import Cameo.Detect.CardOrder
import Cameo.Detect.LinkMatrix
import Cameo.Models.GgufFormat
import Cameo.Models.GgufTermination
import Cameo.Models.WantedValues
import Cameo.Daemon.Metrics
