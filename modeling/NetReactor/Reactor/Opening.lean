import NetReactor.Reactor.Closing

/-!
# Opening channels

An open finds the target's addresses, by a lookup where they are not known, and then connects or binds.
**Every open of a client ends in exactly one connect response**: success with a connection, or a status
that says why not. A server that binds is silent until its first peer.
-/

namespace NetReactor.Reactor

variable {σ : Type} [Host σ]

/-- Gives an open up. -/
def openFailed (r : Reactor σ) (i : Nat) (status : Status) : Reactor σ :=
  match r.channel? i with
  | none => r
  | some c =>
    let r := (r.dropTimer i).releaseSocket i
    let r := r.updateChannel i ({ · with pendingOpen := false, lastStatus := status })
    let r := (r.setState i .closed).emit (.connectResponse i status none)
    if c.mask.isClient && c.mask.isTcp then r.scheduleReconnect i else r

def applyKeepAlive (r : Reactor σ) (d : Descriptor) : Reactor σ :=
  match r.options.keepAlive with
  | some k => { r with world := Host.keepAlive d k r.world }
  | none => r

/-! ## Clients -/

/-- Takes over a client's socket once it is connected. -/
def connected (r : Reactor σ) (i : Nat) (mask : ChannelMask) (d : Descriptor) : Reactor σ :=
  let r := r.dropTimer i
  let r := if mask.isTcp then r.applyKeepAlive d else r
  let (h, r) := r.addTransport i mask d
  let r := (r.updateChannel i ({ · with lastStatus := Status.ok })).setState i .opened
  r.emit (.connectResponse i Status.ok (some h))

/-- Connects to the first of the target's addresses. -/
def startConnect (r : Reactor σ) (i : Nat) : Reactor σ :=
  match r.channel? i with
  | none => r
  | some c =>
    match c.cache.addresses.head? with
    | none => r.openFailed i Status.noAddress
    | some target =>
      match Host.connect c.mask.isTcp c.localPort target r.world with
      | (.ok (d, true), w) => { r with world := w }.connected i c.mask d
      | (.ok (d, false), w) =>
        ({ r with world := w }.watchFor d (.channel i) .write).updateChannel i
          ({ · with socket := some d })
      | (.error e, w) => { r with world := w }.openFailed i e.status

/-- Takes in that a connecting socket showed something. -/
def finishConnect (r : Reactor σ) (i : Nat) : Reactor σ :=
  match r.channel? i with
  | none => r
  | some c =>
    match c.socket with
    | none => r
    | some d =>
      match Host.connectError d r.world with
      | (some e, w) => { r with world := w }.openFailed i e.status
      | (none, w) =>
        let r := { r with world := w }
        -- without a peer the connect is still under way
        if (Host.peerAddress d r.world).isNone then r
        else ((r.updateChannel i ({ · with socket := none })).unwatch d).connected i c.mask d

/-! ## Servers -/

/-- Binds a server. -/
def startServer (r : Reactor σ) (i : Nat) : Reactor σ :=
  match r.channel? i with
  | none => r
  | some c =>
    match c.endpoint.bindAddress?.or c.cache.addresses.head? with
    | none => r.openFailed i Status.noAddress
    | some address =>
      match Host.bindServer c.mask.isTcp address r.world with
      | (.error e, w) => { r with world := w }.openFailed i e.status
      | (.ok d, w) =>
        let r := { r with world := w }.watchFor d (.channel i) .read
        (r.updateChannel i ({ · with socket := some d, lastStatus := Status.ok })).setState i .opened

/-! ## Lookups -/

def establish (r : Reactor σ) (i : Nat) : Reactor σ :=
  if (r.channel? i).any (·.mask.isClient) then r.startConnect i else r.startServer i

/-- Starts the lookup of a channel's name. -/
def startLookup (r : Reactor σ) (i : Nat) : Reactor σ :=
  match r.channel? i with
  | none => r
  | some c =>
    let lookup : Lookup := {
      channel := i
      epoch := c.cache.epoch
      host := c.endpoint.host
      port := c.endpoint.port
      resolver := r.options.resolver }
    let r := r.updateChannel i fun c => { c with cache := c.cache.begin }
    match Host.lookUp lookup r.world with
    | (true, w) => { r with world := w, lookups := lookup :: r.lookups }
    | (false, w) =>
      let (now, r) := { r with world := w }.now
      let failed : Except IoError (List SocketAddress) := .error (.kind .other)
      let r := r.updateChannel i fun c => { c with cache := c.cache.complete c.cache.epoch failed now }
      r.openFailed i Status.lookupFailed

/-- Goes on with an open that waits, once the target is known. A server with an address of its own
needs no lookup. -/
def continueOpen (r : Reactor σ) (i : Nat) : Reactor σ :=
  match r.channel? i with
  | none => r
  | some c =>
    if !c.pendingOpen then r
    else if c.mask.isServer && c.endpoint.bindAddress?.isSome then
      (r.updateChannel i ({ · with pendingOpen := false })).establish i
    else
      let (now, r) := r.now
      let cache := c.cache.refresh r.options.lookupTtl now
      let r := r.updateChannel i ({ · with cache := cache })
      match cache.state with
      | .ready => (r.updateChannel i ({ · with pendingOpen := false })).establish i
      | .dirty => r.startLookup i
      | .inProgress => r
      | .failed => r.openFailed i Status.lookupFailed

/-- Takes in the answer to a lookup, unless its target is no longer the channel's. -/
def resolved (r : Reactor σ) (a : Resolution) : Reactor σ :=
  match r.channel? a.channel with
  | none => r
  | some c =>
    if !c.cache.accepts a.epoch then r
    else
      let cache := c.cache.complete a.epoch a.answer a.time
      let r := r.updateChannel a.channel ({ · with cache := cache, pendingOpen := false })
      if !c.pendingOpen then r
      else if cache.state = .ready then r.establish a.channel
      else r.openFailed a.channel Status.lookupFailed

/-! ## Opens -/

/-- Starts an open, after closing what is open; ignored while one is under way. -/
def openChannel (r : Reactor σ) (i : Nat) (mask : ChannelMask) : Reactor σ :=
  match r.channel? i with
  | none => r
  | some c =>
    if !mask.isValid || c.state = .opening then r
    else
      let r := r.dropTimer i
      let r := if c.state = .opened then r.shutdownChannel i else r
      let r := r.updateChannel i
        ({ · with mask := mask, pendingOpen := true, lastStatus := Status.ok })
      let r := r.setState i .opening
      let r :=
        if mask.isClient then r.armTimer i r.options.connectTimeout (.connectTimeout i) else r
      r.continueOpen i

/-- Takes over a new target; an open that waits for the old one goes on with the new. -/
def setRemote (r : Reactor σ) (i : Nat) (host : Option String) (port : Option UInt16) :
    Reactor σ :=
  match r.channel? i with
  | none => r
  | some c =>
    let c := match host with
      | some host => c.setHost host
      | none => c
    let c := match port with
      | some port => c.setPort port
      | none => c
    (r.updateChannel i fun _ => c).continueOpen i

end NetReactor.Reactor
