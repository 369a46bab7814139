import FireboltTransport.Semantics.Run
import FireboltTransport.Semantics.Mutex
import FireboltTransport.Semantics.StdMap
import FireboltTransport.Common
import FireboltTransport.CommunicationChannel
import FireboltTransport.Gateway.Client
import FireboltTransport.Gateway.ClientInvariant
import FireboltTransport.Gateway.Correlation
import FireboltTransport.Gateway.Outcome
import FireboltTransport.Gateway.Watchdog
import FireboltTransport.Gateway.Identifiers
import FireboltTransport.Gateway.Orphan
import FireboltTransport.Gateway.Timeouts
import FireboltTransport.Gateway.ClientLocks
import FireboltTransport.Gateway.Deadlock
import FireboltTransport.Transport.Operations
import FireboltTransport.Transport.PendingIds
import FireboltTransport.Gateway.GatewayImpl
import FireboltTransport.Gateway.Agreement
import FireboltTransport.Gateway.Workers
import FireboltTransport.Gateway.Starvation
import FireboltTransport.Semantics.PoolOrder
import FireboltTransport.Gateway.Delivery
import FireboltTransport.Gateway.Rollback
import FireboltTransport.Accessor.Pointers
import FireboltTransport.Accessor.Teardown
import FireboltTransport.Transport.Observers
import FireboltTransport.Accessor.Singletons
import FireboltTransport.Gateway.Answers
import FireboltTransport.Async.MethodMap
import FireboltTransport.Async.Jobs
import FireboltTransport.Async.Reports
import FireboltTransport.Async.Abort
import FireboltTransport.Helpers.Operations
import FireboltTransport.Helpers.LockOrder
import FireboltTransport.Helpers.Subscriptions
import FireboltTransport.Helpers.Callbacks
import FireboltTransport.Accessor.Connected
import FireboltTransport.Transport.AdminLock
import FireboltTransport.Gateway.ConnectionLoss
import FireboltTransport.Gateway.Bookkeeping
import FireboltTransport.Gateway.Leftovers
import FireboltTransport.Gateway.Registrations
import FireboltTransport.Gateway.Unregistering
import FireboltTransport.Gateway.EventNames
import FireboltTransport.Helpers.Payloads
import FireboltTransport.Helpers.ClearRace
import FireboltTransport.Helpers.Swept
import FireboltTransport.Gateway.PropertyKeys
import FireboltTransport.Transport.Sweep
import FireboltTransport.Async.Clear
import FireboltTransport.Semantics.ListWalk
import FireboltTransport.Transport.StateChange
import FireboltTransport.Transport.Endpoints
import FireboltTransport.Helpers.ErrorReplies
import FireboltTransport.Transport.References
import FireboltTransport.Transport.Invoke
import FireboltTransport.Semantics.Json
import FireboltTransport.Gateway.ProviderParameters
import FireboltTransport.Async.Revoking
import FireboltTransport.Gateway.ProviderNames
import FireboltTransport.Semantics.Reach
import FireboltTransport.Semantics.JsonItems
import FireboltTransport.JsonEngine
import FireboltTransport.JsonEngine.Termination
import FireboltTransport.Semantics.Linearizable
import FireboltTransport.Gateway.RemoteCalls
import FireboltTransport.Gateway.Returns
import FireboltTransport.Gateway.WrapAround
import FireboltTransport.Semantics.PoolFairness
import FireboltTransport.Gateway.PoolProgress
import FireboltTransport.Gateway.DeliveryProgress
import FireboltTransport.Gateway.CriticalSections
import FireboltTransport.Gateway.Wakeups
import FireboltTransport.Semantics.LockProgress
import FireboltTransport.Gateway.ThreadProgress
import FireboltTransport.Gateway.ThreadReturns
import FireboltTransport.Transport.Life
import FireboltTransport.Gateway.KeysApart
import FireboltTransport.Transport.NeverAnswered
import FireboltTransport.Transport.LockedOut
import FireboltTransport.Transport.AtomicSections
import FireboltTransport.Helpers.Released
