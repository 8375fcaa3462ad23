import LzuMirror.Agent.Aborts
import LzuMirror.Agent.Cancellation
import LzuMirror.Agent.Capture
import LzuMirror.Agent.Collection
import LzuMirror.Agent.CrashRecovery
import LzuMirror.Agent.Evidence
import LzuMirror.Agent.Fence
import LzuMirror.Agent.Heeding
import LzuMirror.Agent.Installation
import LzuMirror.Agent.Irrevocable
import LzuMirror.Agent.Isolation
import LzuMirror.Agent.Leftovers
import LzuMirror.Agent.Maintenance
import LzuMirror.Agent.MountPaths
import LzuMirror.Agent.Processes
import LzuMirror.Agent.Protection
import LzuMirror.Agent.Redelivery
import LzuMirror.Agent.Service
import LzuMirror.Agent.Spawning
import LzuMirror.Agent.Succession
import LzuMirror.Agent.Supervision
import LzuMirror.Agent.Tasks
import LzuMirror.Cli.Issuance
import LzuMirror.Core.Bundles
import LzuMirror.Core.Canonical
import LzuMirror.Core.Placeholders
import LzuMirror.Core.RsyncProfile
import LzuMirror.Lib.Fallible
import LzuMirror.Lib.Interleaving
import LzuMirror.Lib.Keyset
import LzuMirror.Lib.Observation
import LzuMirror.Lib.Ordered
import LzuMirror.Lib.PathTree
import LzuMirror.Lib.Processes
import LzuMirror.Lib.Program
import LzuMirror.Lib.Protocol
import LzuMirror.Lib.SqliteNumber
import LzuMirror.Lib.Words
import LzuMirror.Locks
import LzuMirror.Server.Backup
import LzuMirror.Server.Events
import LzuMirror.Server.Following
import LzuMirror.Server.LogTransfer
import LzuMirror.Server.Restore
import LzuMirror.Server.Retention
import LzuMirror.Store.Absorption
import LzuMirror.Store.Binding
import LzuMirror.Store.Capability
import LzuMirror.Store.Coalescing
import LzuMirror.Store.Conserving
import LzuMirror.Store.Convergence
import LzuMirror.Store.Credentials
import LzuMirror.Store.Eligibility
import LzuMirror.Store.FirstEvents
import LzuMirror.Store.Intervals
import LzuMirror.Store.Lifecycle
import LzuMirror.Store.LiveAttempts
import LzuMirror.Store.LogCounter
import LzuMirror.Store.Normalization
import LzuMirror.Store.Numbering
import LzuMirror.Store.Ownership
import LzuMirror.Store.PermanentFailures
import LzuMirror.Store.Reconfiguration
import LzuMirror.Store.Revocation
import LzuMirror.Store.RunPages
import LzuMirror.Store.ScheduleState
import LzuMirror.Store.SingleWriter
