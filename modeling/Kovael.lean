import Kovael.Mesh.RetryRuns
import Kovael.Chair.Rejection
import Kovael.Hub.Agreement
import Kovael.Hub.CrossTable
import Kovael.Supervisor.Starts
import Kovael.Presence.Protocol
import Kovael.Conversation.FirstPass
import Kovael.Conversation.Closing
import Kovael.Cockpit.ClaimStats
import Kovael.Cockpit.RetryCount
import Kovael.Dispatch.Refusals
import Kovael.Dispatch.Streaming
import Kovael.Chair.Sealings
import Kovael.Http.Settling
import Kovael.Workflow.RetryPolicy
import Kovael.Http.RetryAfter
import Kovael.Http.ClientKeys
import Kovael.Mesh.Cleanup
import Kovael.Repair.GuardSoundness
import Kovael.Repair.Atomic
import Kovael.Committee.Counting
import Kovael.Hub.Attempts
import Kovael.Hub.Opened
import Kovael.Schema.Migrator
import Kovael.Ledger.Receipt
import Kovael.Hub.Resumed
import Kovael.Chair.CircuitHistory
import Kovael.Chair.PostRetry
import Kovael.Cockpit.RosterStatus
import Kovael.Http.BodyReading
import Kovael.Persona.Loader
import Kovael.Triad.Workspaces
import Kovael.Cockpit.Coalescing
import Kovael.Presence.Atomicity
import Kovael.Log.Contents
import Kovael.Log.FailingDisk
import Kovael.Mesh.LightweightMode
import Kovael.Triad.Sharding
import Kovael.Http.TokenScrub
import Kovael.Supervisor.SecretLeaks
import Kovael.Trace.Cycles
import Kovael.Http.FrontDoor
import Kovael.Http.HeaderDeadlines
import Kovael.Runtime.Invocations
import Kovael.Mesh.IdleRuns
import Kovael.Hub.DrainRuns
