import SceneLocks.CommandLine.Arguments
import SceneLocks.CommandLine.Dotenv
import SceneLocks.CommandLine.Help
import SceneLocks.CommandLine.LogFilter
import SceneLocks.CommandLine.Run
import SceneLocks.Engine
import SceneLocks.Error
import SceneLocks.Graph
import SceneLocks.Json.Basic
import SceneLocks.Json.Fields
import SceneLocks.Json.Printer
import SceneLocks.Json.Reader
import SceneLocks.Lock.Acquisition
import SceneLocks.Lock.Admission
import SceneLocks.Lock.Entry
import SceneLocks.Lock.Error
import SceneLocks.Lock.Event
import SceneLocks.Lock.Handle
import SceneLocks.Lock.Queue
import SceneLocks.Lock.Request
import SceneLocks.Lock.Section
import SceneLocks.Lock.Table
import SceneLocks.Locks
import SceneLocks.Log
import SceneLocks.Main
import SceneLocks.Number.Binary64
import SceneLocks.Number.Decimal
import SceneLocks.Number.Reader
import SceneLocks.Number.Stepwise
import SceneLocks.Resource
import SceneLocks.Retry
import SceneLocks.Scope
import SceneLocks.Session.Broadcaster
import SceneLocks.Session.Connection
import SceneLocks.Session.Event
import SceneLocks.Session.Grace
import SceneLocks.Session.Mailbox
import SceneLocks.Session.Registry
import SceneLocks.Settings.Basic
import SceneLocks.Settings.Environment
import SceneLocks.Settings.File
import SceneLocks.Settings.Json
import SceneLocks.Settings.Key
import SceneLocks.Settings.Toml
import SceneLocks.Simulation.Agenda
import SceneLocks.Simulation.Command
import SceneLocks.Simulation.Run
import SceneLocks.Simulation.World
import SceneLocks.Text.Classes
import SceneLocks.Text.Uuid
import SceneLocks.Time.Calendar
import SceneLocks.Time.Duration
import SceneLocks.Time.Timestamp
import SceneLocks.Toml.Fields
import SceneLocks.Toml.Printer
import SceneLocks.Toml.Reader
import SceneLocks.Toml.Scalar
import SceneLocks.Toml.Text
import SceneLocks.Toml.Value
import SceneLocks.Wire
import SceneLocks.Proofs.Graph.Relatives
import SceneLocks.Proofs.Graph.Converses
import SceneLocks.Proofs.Graph.Removal
import SceneLocks.Proofs.Retry.Loop
import SceneLocks.Proofs.Locks.Calls
import SceneLocks.Proofs.Locks.Runs
import SceneLocks.Proofs.Locks.Entries
import SceneLocks.Proofs.Locks.Exclusion
import SceneLocks.Proofs.Locks.TreeExclusion
import SceneLocks.Proofs.Locks.EditorView
import SceneLocks.Proofs.Locks.Ledger
import SceneLocks.Proofs.Locks.Others
import SceneLocks.Proofs.Locks.StaleHandles
import SceneLocks.Proofs.Locks.Mirror
import SceneLocks.Proofs.Locks.Refusal
import SceneLocks.Proofs.Session.Reclamation
import SceneLocks.Proofs.Session.Sessions
import SceneLocks.Proofs.Session.Mailboxes
import SceneLocks.Proofs.Session.Correspondence
import SceneLocks.Proofs.Session.Broadcasting
import SceneLocks.Proofs.Simulation.Moves
import SceneLocks.Proofs.Simulation.GracePeriods
import SceneLocks.Proofs.Simulation.Sleep
import SceneLocks.Proofs.Simulation.Retrying
import SceneLocks.Proofs.Engine.Interleaving
import SceneLocks.Proofs.Engine.Overtaking
import SceneLocks.Proofs.Engine.Delivery
import SceneLocks.Proofs.Engine.LateJoiner
import SceneLocks.Proofs.Engine.Waiting
import SceneLocks.Proofs.Engine.Scopes
import SceneLocks.Proofs.Locks.Custody
import SceneLocks.Proofs.Locks.Invalidation
import SceneLocks.Proofs.Locks.EditorLocks
import SceneLocks.Proofs.Locks.Tasks
import SceneLocks.Proofs.Locks.ScopedLocks
import SceneLocks.Proofs.Locks.Rollback
import SceneLocks.Proofs.Engine.Failures
import SceneLocks.Proofs.Locks.Diagnosis
import SceneLocks.Proofs.Locks.WholeStructure
import SceneLocks.Proofs.Locks.Locality
import SceneLocks.Proofs.Locks.GivingBack
import SceneLocks.Proofs.Locks.TakingBack
import SceneLocks.Proofs.Locks.TreeUpdates
import SceneLocks.Proofs.Engine.Teardown
import SceneLocks.Proofs.Engine.Shutdown
import SceneLocks.Proofs.Locks.GivingUp
import SceneLocks.Proofs.Graph.Cycles
import SceneLocks.Proofs.Locks.OwnTree
import SceneLocks.Proofs.Number.Accuracy
import SceneLocks.Proofs.Settings.Overrides
import SceneLocks.Proofs.Settings.Times
