import Coordination.Setup
import Coordination.Telemetry
import Coordination.Lock.Run
import Coordination.Pool.Run
import Coordination.Manager.Run
import Coordination.Manager.History
import Coordination.Queue.Typed
import Coordination.Queue.Run
import Coordination.Simulation.Locks
import Coordination.Simulation.World.Command
import Coordination.Proofs.Keyed
import Coordination.Proofs.Pool.Flow
import Coordination.Proofs.Pool.Roster
import Coordination.Proofs.Pool.Motion
import Coordination.Proofs.Pool.Conservation
import Coordination.Proofs.Pool.Pending
import Coordination.Proofs.Pool.Abandoned
import Coordination.Proofs.Pool.Step
import Coordination.Proofs.Pool.Admission
import Coordination.Proofs.Pool.Staff
import Coordination.Proofs.Pool.Headcount
import Coordination.Proofs.Pool.Closing
import Coordination.Proofs.Pool.Draining
import Coordination.Proofs.Pool.Passage
import Coordination.Proofs.Pool.LastCall
import Coordination.Proofs.Pool.Order
import Coordination.Proofs.Lock.Step
import Coordination.Proofs.Lock.Records
import Coordination.Proofs.Lock.Exclusion
import Coordination.Proofs.Lock.Wakeup
import Coordination.Proofs.Lock.Authority
import Coordination.Proofs.Lock.Sections
import Coordination.Proofs.Lock.Custody
import Coordination.Proofs.Json.Numbers
import Coordination.Proofs.Json.Records
import Coordination.Proofs.Json.RoundTrip
import Coordination.Proofs.Settings.Loading
import Coordination.Proofs.Settings.Variables
import Coordination.Proofs.Settings.Written
import Coordination.Proofs.Settings.Filling
import Coordination.Proofs.Settings.Precedence
import Coordination.Proofs.Settings.RoundTrip
import Coordination.Proofs.Settings.Spelling
import Coordination.Proofs.Settings.FrontEnds
import Coordination.Proofs.Boost.Phase
import Coordination.Proofs.Boost.Backoff
import Coordination.Proofs.Boost.Decision
import Coordination.Proofs.Boost.Herd
import Coordination.Proofs.Boost.Words
import Coordination.Proofs.Manager.Ledger
import Coordination.Proofs.Manager.Records
import Coordination.Proofs.Manager.Sites
import Coordination.Proofs.Pool.Control
import Coordination.Proofs.Pool.Expiry
import Coordination.Proofs.Pool.Twins
import Coordination.Proofs.Manager.Independence
import Coordination.Proofs.Pool.Wishes
import Coordination.Proofs.Pool.Rest
import Coordination.Proofs.Pool.Finality
import Coordination.Proofs.Pool.Asking
import Coordination.Proofs.Queue.Typed
import Coordination.Proofs.Lock.Slices
import Coordination.Proofs.Lock.Keys
import Coordination.Proofs.Lock.Calls
import Coordination.Proofs.Lock.Attempts
import Coordination.Proofs.Lock.Absence
import Coordination.Proofs.Manager.Batches
import Coordination.Proofs.Queue.Creation
import Coordination.Proofs.Settings.Listing
import Coordination.Proofs.Settings.Faults
import Coordination.Proofs.Pool.Rounds
import Coordination.Proofs.Pool.Waits
import Coordination.Proofs.Pool.Timers
import Coordination.Proofs.Settings.Timeouts
import Coordination.Proofs.Manager.Listing
import Coordination.Proofs.Lock.Counter
