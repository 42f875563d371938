import NetReactor.Reactor.Opening

/-!
# Serving

A stream's server takes waiting connections, a datagram server routes messages by sender: **the first
message of a peer makes a transport for it and announces the connection before the packet**, later ones
that still arrive on the shared socket go to that same transport. A turn takes at most 64 of either.
-/

namespace NetReactor.Reactor

variable {σ : Type} [Host σ]

/-- Connections or messages taken from a server's socket in one turn. -/
def acceptsPerTurn : Nat := 64

/-- Adds the transport of a waiting connection and announces it. -/
def accepted (r : Reactor σ) (i : Nat) (mask : ChannelMask) (d : Descriptor) : Reactor σ :=
  let (h, r) := (r.applyKeepAlive d).addTransport i mask d
  r.emit (.connectResponse i Status.ok (some h))

/-- Takes waiting connections, at most `turns` of them. -/
def acceptAll (i : Nat) (mask : ChannelMask) (d : Descriptor) : (turns : Nat) → Reactor σ → Reactor σ
  | 0, r => r
  | turns + 1, r =>
    match Host.accept d r.world with
    | (.ok (some (peer, _)), w) =>
      acceptAll i mask d turns ({ r with world := w }.accepted i mask peer)
    | (.ok none, w) => { r with world := w }
    | (.error _, w) => { r with world := w }

/-- The transport of a peer, if it is still there. -/
def peerHandle? (r : Reactor σ) (i : Nat) (peer : SocketAddress) : Option Handle := do
  let c ← r.channel? i
  let id ← c.peers.lookup peer
  let t ← r.transports.get? id
  return t.handle

/-- Makes a transport for a new peer of a datagram server and announces it. -/
def addPeer (r : Reactor σ) (i : Nat) (mask : ChannelMask) (d : Descriptor) (peer : SocketAddress) :
    Option Handle × Reactor σ :=
  match Host.localAddress d r.world with
  | none => (none, r)
  | some server =>
    match Host.bindPeer server peer r.world with
    | (.error _, w) => (none, { r with world := w })
    | (.ok d, w) =>
      let (h, r) := { r with world := w }.addTransport i mask d
      let r := r.updateChannel i fun c =>
        { c with peers := (peer, h.id) :: c.peers.filter (·.1 ≠ peer) }
      (some h, r.emit (.connectResponse i Status.ok (some h)))

/-- Routes a message to its sender's transport. -/
def onDatagram (r : Reactor σ) (i : Nat) (mask : ChannelMask) (d : Descriptor)
    (peer : SocketAddress) (payload : Bytes) : Reactor σ :=
  match r.peerHandle? i peer with
  | some h => r.emit (.packet i h payload)
  | none =>
    match r.addPeer i mask d peer with
    | (some h, r) => r.emit (.packet i h payload)
    | (none, r) => r

/-- Takes messages from a server's socket, at most `turns` of them. -/
def receiveDatagrams (i : Nat) (mask : ChannelMask) (d : Descriptor) :
    (turns : Nat) → Reactor σ → Reactor σ
  | 0, r => r
  | turns + 1, r =>
    match Host.receiveFrom d receiveRoom r.world with
    | (.ok (payload, peer), w) =>
      receiveDatagrams i mask d turns ({ r with world := w }.onDatagram i mask d peer payload)
    | (.error _, w) => { r with world := w }

/-- Takes in that a channel's socket showed something. -/
def serveChannel (r : Reactor σ) (i : Nat) : Reactor σ :=
  match r.channel? i with
  | none => r
  | some c =>
    match c.socket, c.mask.isClient, c.state with
    | some _, true, .opening => r.finishConnect i
    | some d, false, .opened =>
      if c.mask.isTcp then acceptAll i c.mask d acceptsPerTurn r
      else receiveDatagrams i c.mask d acceptsPerTurn r
    | _, _, _ => r

end NetReactor.Reactor
