import NetReactor.ChannelMask
import NetReactor.Readiness
import NetReactor.ResolveCache
import NetReactor.Timer.Entry
import NetReactor.TransportId

/-!
# Channels

A channel is one configured endpoint and what has become of it. Its state is closed, opening
(looking up, connecting or binding) or open. **Everything but the state is the loop's own**; other
threads read the states from a table beside the channels.
-/

namespace NetReactor

inductive ChannelState
  | closed
  /-- Looking up, connecting, or binding. -/
  | opening
  /-- Connected as a client, or receiving as a server. -/
  | opened
deriving DecidableEq, Repr, Inhabited

def ChannelState.text : ChannelState → String
  | .closed => "Closed"
  | .opening => "Opening"
  | .opened => "Opened"

structure Channel where
  mask : ChannelMask
  endpoint : Endpoint
  /-- The port a client binds before it connects; 0 leaves the choice to the system. -/
  localPort : UInt16
  cache : ResolveCache
  state : ChannelState
  /-- Whether an open waits for a lookup. -/
  pendingOpen : Bool
  /-- The connecting client's, or the server's socket. -/
  socket : Option Descriptor
  /-- The connect timeout, or the delay before the next try. -/
  timer : Option Timer.Handle
  lastStatus : Status
  /-- The transports of a datagram server's peers. -/
  peers : List (SocketAddress × TransportId)
deriving Repr, Inhabited

namespace Channel

/-- A closed channel that was never opened. -/
def ofEndpoint (e : Endpoint) : Channel where
  mask := ⟨0⟩
  endpoint := e
  localPort := 0
  cache := .ofEndpoint e
  state := .closed
  pendingOpen := false
  socket := none
  timer := none
  lastStatus := Status.ok
  peers := []

/-- A new target; the same host again changes nothing. -/
def setHost (c : Channel) (host : String) : Channel :=
  if c.endpoint.host = host then c
  else
    let e : Endpoint := ⟨host, c.endpoint.port⟩
    { c with endpoint := e, cache := c.cache.setHost e }

/-- A new port; zero changes nothing. -/
def setPort (c : Channel) (port : UInt16) : Channel :=
  if port = 0 || c.endpoint.port = port then c
  else { c with endpoint := ⟨c.endpoint.host, port⟩, cache := c.cache.setPort port }

end Channel

end NetReactor
