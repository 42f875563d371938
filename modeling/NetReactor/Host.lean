import NetReactor.Service.Request
import NetReactor.Sockets

/-!
# The host

What the loop asks of the system beside reading and writing: the clock, sockets, lookups, and the wait
for readiness. Every call answers at once and may change the world `σ`; no answer is ruled out.
-/

namespace NetReactor

class Host (σ : Type) extends Sockets σ, Application σ where
  now : σ → Instant × σ
  /-- Starts a connect, from a local port unless it is zero; tells whether it is done already. -/
  connect : (stream : Bool) → (localPort : UInt16) → SocketAddress → σ →
    Except IoError (Descriptor × Bool) × σ
  /-- How a connect in progress went, if it failed. -/
  connectError : Descriptor → σ → Option IoError × σ
  /-- Binds a server's socket, and listens on it if it is a stream's. -/
  bindServer : (stream : Bool) → SocketAddress → σ → Except IoError Descriptor × σ
  /-- Takes a waiting connection, if there is one. -/
  accept : Descriptor → σ → Except IoError (Option (Descriptor × SocketAddress)) × σ
  /-- Receives one message and its sender. -/
  receiveFrom : Descriptor → (limit : Nat) → σ → Except IoError (Bytes × SocketAddress) × σ
  /-- A socket on a server's address that is connected to one peer. -/
  bindPeer : (server peer : SocketAddress) → σ → Except IoError Descriptor × σ
  localAddress : Descriptor → σ → Option SocketAddress
  peerAddress : Descriptor → σ → Option SocketAddress
  keepAlive : Descriptor → KeepAlive → σ → σ
  close : Descriptor → σ → σ
  /-- Starts a lookup; `false` if it could not be started. -/
  lookUp : Lookup → σ → Bool × σ
  /-- Waits until one of the descriptors shows a bit asked for, or so many milliseconds. -/
  wait : List (Descriptor × PollBits) → (millis : Nat) → σ → List (Descriptor × PollBits) × σ

namespace Service

variable {σ : Type} [Host σ]

/-- Runs a callback. -/
def runScript : Script σ → Service → Service × σ
  | .done w, s => (s, w)
  | .call w request next, s =>
    let (now, w) := Host.now w
    let (reply, s) := s.perform now request
    runScript (next reply w) s

/-- Hands an event to a callback. -/
def deliver (callback : Nat) (e : Event) (s : Service) (w : σ) : Service × σ :=
  runScript (Application.onEvent callback e w)
    { s with delivered := s.delivered.push (callback, e) }

/-- Hands events to a callback, in order. -/
def deliverAll (callback : Nat) : List Event → Service → σ → Service × σ
  | [], s, w => (s, w)
  | e :: rest, s, w =>
    let (s, w) := deliver callback e s w
    deliverAll callback rest s w

/-- Hands at most `max` waiting events to the callback; tells how many were taken. -/
def dispatch (max : Nat) (s : Service) (w : σ) : Nat × Service × σ :=
  let (batch, rest) := EventQueue.popBatch s.events max
  let s := { s with events := rest }
  match s.callback with
  | some callback => (batch.length, deliverAll callback batch s w)
  | none => (batch.length, s, w)

end Service

end NetReactor
