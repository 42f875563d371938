import NetReactor.LogFile
import NetReactor.Main
import NetReactor.Simulation.Lookout
import NetReactor.Simulation.Scenario
import NetReactor.Proofs.Frame.Chunking
import NetReactor.Proofs.Frame.Exactness
import NetReactor.Proofs.Frame.Progress
import NetReactor.Proofs.Frame.Reset
import NetReactor.Proofs.Frame.Unframed
import NetReactor.Proofs.Slots.History
import NetReactor.Proofs.Slots.Generations
import NetReactor.Proofs.Timer.Table
import NetReactor.Proofs.Timer.Rounding
import NetReactor.Proofs.Timer.Accounts
import NetReactor.Proofs.Lookup.CachedPorts
import NetReactor.Proofs.Lookup.Freshness
import NetReactor.Proofs.Reactor.Quiet
import NetReactor.Proofs.Reactor.Targets
import NetReactor.Proofs.Reactor.Lifetime
import NetReactor.Proofs.Lookup.Provenance
import NetReactor.Proofs.Lookup.Outstanding
import NetReactor.Proofs.Reactor.Snapshot
import NetReactor.Proofs.Reactor.Story
import NetReactor.Proofs.Transport.Sending
import NetReactor.Proofs.Transport.Receiving
import NetReactor.Proofs.Reactor.Deeds
import NetReactor.Proofs.Reactor.Wakeup
import NetReactor.Proofs.Reactor.Survey
import NetReactor.Proofs.Reactor.Dormant
import NetReactor.Proofs.Reactor.Reconnect
import NetReactor.Proofs.Reactor.Teardown
import NetReactor.Proofs.Reactor.Identity
import NetReactor.Proofs.Reactor.Delivery
import NetReactor.Proofs.Echo.Fidelity
import NetReactor.Proofs.Reactor.LastCalls
import NetReactor.Proofs.Reactor.Addressed
import NetReactor.Proofs.Reactor.Deadlines
import NetReactor.Proofs.Reactor.Routing
import NetReactor.Proofs.Options.Usable
import NetReactor.Proofs.Reactor.Contention
import NetReactor.Proofs.Reactor.Indices
import NetReactor.Proofs.Reactor.Misuse
