import NetReactor.Reactor

/-!
# Transports in the loop

A transport is added with its connection open and its socket watched for input. It is lost once: **the
connection is closed before the lost event, and the slot is freed after it**. A client's channel is
closed with its transport, and a stream's client plans its next try unless this side closed.
-/

namespace NetReactor.Reactor

variable {σ : Type} [Host σ]

/-- Takes over a connected socket of a channel. -/
def addTransport (r : Reactor σ) (i : Nat) (mask : ChannelMask) (d : Descriptor) :
    Handle × Reactor σ :=
  let build (id : TransportId) : Handle := {
    serial := r.service.connections.size
    id := id
    channel := i
    mask := mask
    localAddress := Host.localAddress d r.world
    peerAddress := Host.peerAddress d r.world }
  let (id, transports) := r.transports.insertWith fun id => ⟨build id, d, .new, .read⟩
  let h := build id
  let s := { r.service with connections := r.service.connections.push (.ofHandle h) }
  (h, { r with transports := transports, service := s }.watchFor d (.transport id) .read)

/-- What the loss of a client's transport means for its channel. -/
def afterLoss (r : Reactor σ) (i : Nat) (status : Status) : Reactor σ :=
  match r.channel? i with
  | none => r
  | some c =>
    if c.mask.isClient then
      let r := (r.updateChannel i ({ · with lastStatus := status })).setState i .closed
      if c.mask.isTcp && status ≠ Status.closedHere then r.scheduleReconnect i else r
    else r

/-- Closes a connection with `status`, tells the application, and frees the slot. -/
def loseTransport (r : Reactor σ) (id : TransportId) (status : Status) : Reactor σ :=
  match r.transports.get? id with
  | none => r
  | some t =>
    let i := t.handle.channel
    let r := (r.unwatch t.descriptor).shutdownSocket t.descriptor
    let r := { r with service := r.service.updateConnection t.handle (·.close status) }
    let r := r.emit (.connectionLost i status t.handle)
    let r := { r with transports := (r.transports.remove id).2 }.closeSocket t.descriptor
    let r := r.updateChannel i fun c => { c with peers := c.peers.filter (·.2 ≠ id) }
    r.afterLoss i status

/-- Sends what a transport's socket takes. -/
def flushTransport (r : Reactor σ) (now : Instant) (id : TransportId) :
    Option Failure × Reactor σ :=
  match r.transports.get? id with
  | none => (none, r)
  | some t =>
    match r.service.connection? t.handle with
    | none => (none, r)
    | some c =>
      let f := flush t.descriptor now c.outgoing r.world
      let s := r.service.updateConnection t.handle ({ · with outgoing := f.queue })
      (f.failure, { r with service := s, world := f.world })

/-- Closes a transport from this side, after sending what the socket takes. -/
def closeTransport (r : Reactor σ) (id : TransportId) : Reactor σ :=
  if r.transports.contains id then
    let (now, r) := r.now
    let (_, r) := r.flushTransport now id
    r.loseTransport id Status.closedHere
  else r

/-- Reads a transport: its packets, and then its loss if reading failed. -/
def readTransport (r : Reactor σ) (id : TransportId) : Reactor σ :=
  match r.transports.get? id with
  | none => r
  | some t =>
    let got := t.read r.options.framing r.world
    let r := { r with
      world := got.world
      transports := r.transports.modify id ({ · with assembler := got.assembler }) }
    let r := r.emitAll (got.packets.toList.map (.packet t.handle.channel t.handle))
    match got.failure with
    | some e => r.loseTransport id e.status
    | none => r

/-- Sends what waits on every transport, in slot order; those that fail are lost afterwards. -/
def flushTransports (r : Reactor σ) : Reactor σ :=
  let (now, r) := r.now
  let one (fr : List (TransportId × Status) × Reactor σ) (id : TransportId) :
      List (TransportId × Status) × Reactor σ :=
    match fr.2.flushTransport now id with
    | (some e, r) => (fr.1 ++ [(id, e.status)], r)
    | (none, r) => (fr.1, r)
  let (failed, r) := r.transports.ids.foldl one ([], r)
  failed.foldl (fun r f => r.loseTransport f.1 f.2) r

/-- Watches each transport for what it wants now. -/
def updateInterest (r : Reactor σ) (id : TransportId) : Reactor σ :=
  match r.transports.get? id with
  | none => r
  | some t =>
    match r.service.connection? t.handle with
    | none => r
    | some c =>
      if c.wanted = t.interest then r
      else
        { r with transports := r.transports.modify id ({ · with interest := c.wanted }) }.watchFor
          t.descriptor (.transport id) c.wanted

def updateInterests (r : Reactor σ) : Reactor σ := r.transports.ids.foldl updateInterest r

end NetReactor.Reactor
