import NetReactor.Reactor.Transports

/-!
# Closing channels

A channel that is shut down has neither socket, timer nor transports left, and plans no further try.
**A close while the channel is opening is the outcome of that open**, and is reported as one.
-/

namespace NetReactor.Reactor

variable {σ : Type} [Host σ]

/-- Takes a channel's socket off the watch and closes it. -/
def releaseSocket (r : Reactor σ) (i : Nat) : Reactor σ :=
  match (r.channel? i).bind (·.socket) with
  | some d => ((r.updateChannel i ({ · with socket := none })).unwatch d).closeSocket d
  | none => r

/-- The transports of a channel. -/
def transportsOf (r : Reactor σ) (i : Nat) : List TransportId :=
  (r.transports.toList.filter fun t => t.2.handle.channel = i).map (·.1)

/-- Closes a channel's socket and all its transports. -/
def shutdownChannel (r : Reactor σ) (i : Nat) : Reactor σ :=
  let r := (r.dropTimer i).updateChannel i ({ · with pendingOpen := false })
  let r := match (r.channel? i).bind (·.socket) with
    | some d => r.shutdownSocket d
    | none => r
  let r := r.releaseSocket i
  let r := (r.transportsOf i).foldl closeTransport r
  (r.updateChannel i ({ · with peers := [] })).setState i .closed

def closeChannel (r : Reactor σ) (i : Nat) : Reactor σ :=
  match r.channel? i with
  | none => r
  | some c =>
    let r := r.shutdownChannel i
    if c.state = .opening then r.emit (.connectResponse i Status.closedHere none) else r

end NetReactor.Reactor
