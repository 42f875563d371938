import NetReactor.Proofs.Reactor.Moves

/-!
# Chores

All that the loop does for a channel is made of **chores**: it asks the system something, drops a timer,
takes a socket over, tells an event, loses a transport (`Chore`). What every chore keeps, a row of them
keeps (`Chores.keeps`), and every handler is such a row; so a coarser account of the loop is one lemma with a case
for each chore. The first of them is here: **every chore is a path of moves of its channel** (`Chore.path`).

What a row may do is in its `Terms`. A chore also says what is known where it is done, as its handler has checked
it: that the addresses are known where a client connects, that the channel relays messages where a peer is
greeted. Some of it is known only if the handler started from rest, and then **an open begins and goes
on from a channel that is bare** (`Bare`).
-/

namespace NetReactor

/-- Whether a command is one that an application can ask for. -/
def Command.isRequest : Command → Bool
  | .resolved _ => false
  | _ => true

namespace Channel

/-- What of a channel does not change with its state or its peers. -/
def holding (c : Channel) : ChannelMask × Option Descriptor × Bool × Option Timer.Handle :=
  (c.mask, c.socket, c.pendingOpen, c.timer)

/-- That, and its state: all that the phases of a channel are about, but for a lookup. -/
def standing (c : Channel) := (c.holding, c.state)

/-- Whether messages on the channel's socket are routed by sender: it is open as a datagram server. -/
def routes (c : Channel) : Bool := c.state = .opened && !c.mask.isClient && !c.mask.isTcp

/-- There should be an address to connect or to bind to. -/
def Located (c : Channel) : Prop :=
  c.cache.state = .ready ∨ c.mask.isServer = true ∧ c.endpoint.bindAddress?.isSome = true

/-- Nor is there any that the channel could use. -/
def Stranded (c : Channel) : Prop :=
  c.cache.addresses.head? = none ∧ (c.mask.isClient = true ∨ c.endpoint.bindAddress? = none)

end Channel

namespace Host

variable {σ : Type} [Host σ]

/-- A call of the host that gives the loop nothing to take over. -/
inductive Ask : σ → σ → Prop
  | now (w : σ) : Ask w (Host.now w).2
  | refused {stream : Bool} {port : UInt16} {a : SocketAddress} {w w' : σ} {e : IoError}
      (h : Host.connect stream port a w = (.error e, w')) : Ask w w'
  | connectError (d : Descriptor) (w : σ) : Ask w (Host.connectError d w).2
  | unbound {stream : Bool} {a : SocketAddress} {w w' : σ} {e : IoError}
      (h : Host.bindServer stream a w = (.error e, w')) : Ask w w'
  | accept {d : Descriptor} {w w' : σ} {answer : Except IoError (Option (Descriptor × SocketAddress))}
      (h : Host.accept d w = (answer, w')) (hnone : ∀ peer, answer ≠ .ok (some peer)) : Ask w w'
  | receiveFrom (d : Descriptor) (limit : Nat) (w : σ) : Ask w (Host.receiveFrom d limit w).2
  | homeless {server peer : SocketAddress} {w w' : σ} {e : IoError}
      (h : Host.bindPeer server peer w = (.error e, w')) : Ask w w'
  | shutdown (d : Descriptor) (w : σ) : Ask w (Sockets.shutdown d w)

/-- A call whose answer is known. -/
theorem Ask.of_eq {α : Type} {w : σ} {x y : α × σ} (h : Ask w x.2) (heq : x = y) : Ask w y.2 := heq ▸ h

variable (σ)

/-- An error that the system reports to one who connects or binds. -/
inductive Reports : IoError → Prop
  | connect {stream : Bool} {port : UInt16} {a : SocketAddress} {w w' : σ} {e : IoError}
      (h : Host.connect stream port a w = (.error e, w')) : Reports e
  | connectError {d : Descriptor} {w w' : σ} {e : IoError} (h : Host.connectError d w = (some e, w')) :
      Reports e
  | bindServer {stream : Bool} {a : SocketAddress} {w w' : σ} {e : IoError}
      (h : Host.bindServer stream a w = (.error e, w')) : Reports e

/-- Why an open fails. That it was closed from this side is none of the reasons. -/
inductive Refusal : Status → Prop
  | noAddress : Refusal Status.noAddress
  | lookupFailed : Refusal Status.lookupFailed
  | connectTimeout : Refusal Status.connectTimeout
  | reported {e : IoError} (h : Reports σ e) : Refusal e.status

variable {σ}

theorem Refusal.status_ne_ok {status : Status} (h : Refusal σ status) (herrors : ErrorsNonzero σ) :
    status ≠ Status.ok := by
  have hreported : ∀ {e : IoError}, Reports σ e → e ≠ .os 0 := by
    intro e he heq
    cases he with
    | connect h => exact herrors.connect _ _ _ _ (by rw [h, heq])
    | connectError h => exact herrors.connectError _ _ (by rw [h, heq])
    | bindServer h => exact herrors.bindServer _ _ _ (by rw [h, heq])
  cases h with
  | noAddress => decide
  | lookupFailed => decide
  | connectTimeout => decide
  | reported he => exact IoError.status_ne_ok (hreported he)

end Host

namespace Reactor

variable {σ : Type} {r r' : Reactor σ} {i : Nat}

/-! ## Transports of a channel -/

/-- A transport of a channel that the loop holds. -/
def Live (r : Reactor σ) (i : Nat) (id : TransportId) : Prop :=
  ∃ t, r.transports.get? id = some t ∧ t.handle.channel = i

/-- The loop holds no transport of a channel. -/
def Alone (r : Reactor σ) (i : Nat) : Prop := ∀ id, ¬ r.Live i id

theorem live_congr (h : r'.transports = r.transports) (i : Nat) (id : TransportId) :
    r'.Live i id ↔ r.Live i id := by
  rw [Live, Live, h]

theorem alone_congr (h : r'.transports = r.transports) (halone : r.Alone i) : r'.Alone i := by
  simpa only [Alone, Live, h] using halone

theorem live_remove (r : Reactor σ) (id : TransportId) (k : Nat) (id' : TransportId) :
    Live { r with transports := (r.transports.remove id).2 } k id' ↔ r.Live k id' ∧ id' ≠ id := by
  simp only [Live, Arena.get?_remove]
  by_cases hid : id' = id
  · simp [hid]
  · simp [hid]

theorem live_of_remove {id : TransportId} (h : r'.transports = (r.transports.remove id).2) (k : Nat)
    (id' : TransportId) : r'.Live k id' ↔ r.Live k id' ∧ id' ≠ id := by
  rw [← live_remove r id k id', Live, Live, h]

theorem channel_of_mem_transportsOf (hfits : r.transports.Fits) {id : TransportId}
    (hid : id ∈ r.transportsOf i) : ∃ t, r.transports.get? id = some t ∧ t.handle.channel = i := by
  obtain ⟨⟨id, t⟩, hmem, rfl⟩ := List.mem_map.1 hid
  obtain ⟨hmem, hi⟩ := List.mem_filter.1 hmem
  exact ⟨t, (Arena.mem_toList hfits).1 hmem, by simpa using hi⟩

/-! ## Bare channels -/

/-- Channel `i` is in this state, and has neither socket nor transports. -/
structure Bare (r : Reactor σ) (i : Nat) (state : ChannelState) : Prop where
  channel : ∀ c, r.channel? i = some c → c.state = state ∧ c.socket = none
  alone : r.Alone i

namespace Bare

variable {state : ChannelState}

theorem of_eq (h : r.Bare i state) (hchannels : r'.channels = r.channels)
    (htransports : r'.transports = r.transports) : r'.Bare i state :=
  ⟨fun c hc => h.channel c (by rwa [channel?, hchannels] at hc), alone_congr htransports h.alone⟩

theorem updateChannel (h : r.Bare i state) {f : Channel → Channel} {state' : ChannelState}
    (hf : ∀ c, c.state = state → c.socket = none → (f c).state = state' ∧ (f c).socket = none) :
    (r.updateChannel i f).Bare i state' := by
  refine ⟨fun c' hc' => ?_, h.alone⟩
  obtain ⟨c, hc, rfl⟩ := exists_of_updateChannel hc'
  obtain ⟨hstate, hsocket⟩ := h.channel c hc
  exact hf c hstate hsocket

end Bare

variable [Host σ]

theorem live_closeTransports (ids : List TransportId) (r : Reactor σ) (k : Nat) (id : TransportId) :
    (ids.foldl closeTransport r).Live k id ↔ r.Live k id ∧ id ∉ ids := by
  induction ids generalizing r with
  | nil => simp
  | cons first rest ih =>
    refine (ih _).trans ?_
    rw [live_of_remove (transports_closeTransport r first), List.mem_cons, not_or, and_assoc]

theorem live_shutdownChannel (r : Reactor σ) (i k : Nat) (id : TransportId) :
    (r.shutdownChannel i).Live k id ↔
      (r.silenced i).Live k id ∧ id ∉ (r.silenced i).transportsOf i := by
  rw [← live_closeTransports, shutdownChannel_eq]
  generalize ((r.silenced i).transportsOf i).foldl closeTransport (r.silenced i) = r'
  exact live_congr rfl k id

/-- **A shutdown closes all transports of its channel.** -/
theorem alone_shutdownChannel (hfits : r.transports.Fits) : (r.shutdownChannel i).Alone i := by
  have hfits₁ : (r.silenced i).transports.Fits := by rwa [transports_silenced]
  intro id hid
  obtain ⟨⟨t, ht, hi⟩, hnot⟩ := (live_shutdownChannel r i i id).1 hid
  refine hnot (List.mem_map.2 ⟨(id, t), List.mem_filter.2 ⟨?_, by simpa using hi⟩, rfl⟩)
  exact (Arena.mem_toList hfits₁).2 ht

theorem size_shutdownChannel (r : Reactor σ) (i : Nat) :
    (r.shutdownChannel i).transports.slots.size = r.transports.slots.size := by
  rw [shutdownChannel_eq, ← transports_silenced r i]
  refine List.foldlRecOn (motive := fun r' : Reactor σ =>
    r'.transports.slots.size = (r.silenced i).transports.slots.size) _ _ rfl fun r' hr id _ => ?_
  rw [transports_closeTransport, Arena.size_remove, hr]

/-- An open begins. -/
theorem Bare.begun (h : r.Bare i .closed) (mask : ChannelMask) : (r.begun i mask).Bare i .opening := by
  let r₁ := r.updateChannel i ({ · with mask := mask, pendingOpen := true, lastStatus := Status.ok })
  have hset : r₁.Bare i .closed := h.updateChannel fun _ hstate hsocket => by exact ⟨hstate, hsocket⟩
  have hturned : (r₁.updateChannel i ({ · with state := .opening })).Bare i .opening :=
    hset.updateChannel fun _ _ hsocket => ⟨rfl, hsocket⟩
  have hopening : (r₁.setState i .opening).Bare i .opening := hturned.of_eq rfl rfl
  unfold Reactor.begun
  split
  · refine ⟨fun c' hc' => ?_, alone_congr (transports_armTimer _ i _ _) hopening.alone⟩
    obtain ⟨c, hc, rfl⟩ := Option.map_eq_some_iff.1 ((channel?_armTimer _ i _ _).symm.trans hc')
    exact hopening.channel c hc
  · exact hopening

/-! ## Chores -/

/-- What a row of chores may do, and where: whether it starts from rest; whether it may seek addresses and
take answers in; which opens it may begin; and for which channels it is done. -/
structure Terms where
  rests : Prop
  seeks : Prop
  hears : Prop
  opens : ChannelMask → Prop
  concerns : Nat → Prop

namespace Terms

/-- Anything may be done, from any state. -/
def any : Terms := ⟨False, True, True, fun _ => True, fun _ => True⟩

/-- Anything may be done, from rest. -/
def rested : Terms := { any with rests := True }

/-- Anything may be done for one channel. -/
def own (i : Nat) : Terms := { any with concerns := (· = i) }

/-- No answer is taken in. -/
def deaf : Terms := { any with hears := False }

/-- Nothing is done about targets. -/
def quiet : Terms := { deaf with seeks := False, opens := fun _ => False }

end Terms

/-- Why an open of channel `i` fails. -/
inductive Thwarted (r : Reactor σ) (i : Nat) : Status → Prop
  | stranded {c : Channel} (hc : r.channel? i = some c) (hlocated : c.Located) (hstranded : c.Stranded) :
      Thwarted r i Status.noAddress
  | lookupFailed : Thwarted r i Status.lookupFailed
  | connectTimeout : Thwarted r i Status.connectTimeout
  | reported {e : IoError} (h : Host.Reports σ e) : Thwarted r i e.status

theorem Thwarted.refusal {status : Status} (h : r.Thwarted i status) : Host.Refusal σ status := by
  cases h with
  | stranded hc hlocated hstranded => exact .noAddress
  | lookupFailed => exact .lookupFailed
  | connectTimeout => exact .connectTimeout
  | reported h => exact .reported h

/-- What is known of a channel's target changes, an answer apart. -/
inductive Seek (i : Nat) : Reactor σ → Reactor σ → Prop
  | retarget {r : Reactor σ} {c : Channel} {host : Option String} {port : Option UInt16} {e : Endpoint}
      {cache : ResolveCache} (hc : r.channel? i = some c)
      (h : c.retargeted host port = { c with endpoint := e, cache := cache }) :
      Seek i r (r.updateChannel i ({ · with endpoint := e, cache := cache }))
  | refresh {r : Reactor σ} {c : Channel} (hc : r.channel? i = some c) : Seek i r (r.refreshed i c)
  | inquire {r : Reactor σ} {c : Channel} {w : σ} (hc : r.channel? i = some c)
      (hdirty : c.cache.state = .dirty) (h : Host.lookUp (r.lookupFor i c) r.world = (true, w)) :
      Seek i r { r.inquiring i with world := w, lookups := r.lookupFor i c :: r.lookups }
  | unanswered {r : Reactor σ} {c : Channel} {w : σ} (hc : r.channel? i = some c)
      (hdirty : c.cache.state = .dirty) (h : Host.lookUp (r.lookupFor i c) r.world = (false, w)) :
      Seek i r ({ r.inquiring i with world := w }.unanswered i)

/-- A message came on the socket of channel `i`, which relays messages. -/
structure Relays (T : Terms) (r : Reactor σ) (i : Nat) (c : Channel) : Prop where
  channel : r.channel? i = some c
  routes : c.routes = true
  valid : T.rests → c.mask.isValid = true

variable (T : Terms)

/-- One thing done for channel `i`. -/
inductive Chore (i : Nat) : Reactor σ → Reactor σ → Prop
  | ask {r : Reactor σ} {w : σ} (h : Host.Ask r.world w) : Chore i r { r with world := w }
  | drop {r : Reactor σ} : Chore i r (r.dropTimer i)
  | settle {r : Reactor σ} : Chore i r (r.updateChannel i ({ · with pendingOpen := false }))
  | release {r : Reactor σ} : Chore i r (r.releaseSocket i)
  | port {r : Reactor σ} (port : UInt16) : Chore i r (r.updateChannel i ({ · with localPort := port }))
  | seek {r r' : Reactor σ} (hseeks : T.seeks) (h : Seek i r r') : Chore i r r'
  | answer {r : Reactor σ} {a : Resolution} {c : Channel} (hhears : T.hears) (ha : a.channel = i)
      (hc : r.channel? i = some c) (haccepts : c.cache.accepts a.epoch = true) :
      Chore i r (r.answeredBy a c)
  | begin {r : Reactor σ} {c : Channel} {mask : ChannelMask} (hopens : T.opens mask)
      (hvalid : mask.isValid = true) (hc : r.channel? i = some c)
      (hbare : T.rests → r.Bare i .closed) : Chore i r (r.begun i mask)
  | fail {r : Reactor σ} {status : Status} (h : r.Thwarted i status)
      (hopening : T.rests → ∀ c, r.channel? i = some c → c.state = .opening) :
      Chore i r (r.openFailed i status)
  | connect {r : Reactor σ} {c : Channel} {target : SocketAddress} {d : Descriptor} {w : σ}
      (hc : r.channel? i = some c) (hclient : c.mask.isClient = true)
      (h : Host.connect c.mask.isTcp c.localPort target r.world = (.ok (d, true), w)) :
      Chore i r ({ r with world := w }.connected i c.mask d)
  | connecting {r : Reactor σ} {c : Channel} {target : SocketAddress} {d : Descriptor} {w : σ}
      (hc : r.channel? i = some c) (hclient : c.mask.isClient = true)
      (h : Host.connect c.mask.isTcp c.localPort target r.world = (.ok (d, false), w))
      (hbare : T.rests → r.Bare i .opening) : Chore i r ({ r with world := w }.connecting i d)
  | finish {r : Reactor σ} {c : Channel} {d : Descriptor} {w : σ} (hc : r.channel? i = some c)
      (hclient : c.mask.isClient = true) (hsocket : c.socket = some d)
      (h : Host.connectError d r.world = (none, w)) :
      Chore i r (({ r with world := w }.unbound i d).connected i c.mask d)
  | bind {r : Reactor σ} {c : Channel} {address : SocketAddress} {d : Descriptor} {w : σ}
      (hc : r.channel? i = some c) (hserver : c.mask.isClient = false)
      (h : Host.bindServer c.mask.isTcp address r.world = (.ok d, w))
      (hbare : T.rests → r.Bare i .opening) : Chore i r ({ r with world := w }.bound i d)
  | accept {r : Reactor σ} {c : Channel} {d d' : Descriptor} {address : SocketAddress} {w : σ}
      (hc : r.channel? i = some c) (htcp : c.mask.isTcp = true)
      (h : Host.accept d r.world = (.ok (some (d', address)), w)) :
      Chore i r ({ r with world := w }.accepted i c.mask d')
  | packet {r : Reactor σ} {c : Channel} {peer : SocketAddress} {k : Handle}
      (hrelays : r.Relays T i c) (hpeer : r.peerHandle? i peer = some k) (payload : Bytes) :
      Chore i r (r.emit (.packet i k payload))
  /-- A new peer is announced, and its first message follows at once. -/
  | greet {r : Reactor σ} {c : Channel} {server peer : SocketAddress} {d : Descriptor} {w : σ}
      (hrelays : r.Relays T i c) (hunknown : r.peerHandle? i peer = none)
      (h : Host.bindPeer server peer r.world = (.ok d, w)) (payload : Bytes) :
      Chore i r (({ r with world := w }.introduced i c.mask d peer).emit
        (.packet i ({ r with world := w }.addTransport i c.mask d).1 payload))
  | read {r : Reactor σ} {id : TransportId} {t : Transport} (ht : r.transports.get? id = some t)
      (hi : t.handle.channel = i) (hok : (t.read r.options.framing r.world).failure = none) :
      Chore i r (r.unpacked id t)
  | broken {r : Reactor σ} {id : TransportId} {t : Transport} {e : Failure}
      (ht : r.transports.get? id = some t) (hi : t.handle.channel = i)
      (hfailed : (t.read r.options.framing r.world).failure = some e) :
      Chore i r ((r.unpacked id t).loseTransport id e.status)
  | flush {r : Reactor σ} (now : Instant) (id : TransportId) : Chore i r (r.flushTransport now id).2
  | lose {r : Reactor σ} {id : TransportId} {t : Transport} (ht : r.transports.get? id = some t)
      (hi : t.handle.channel = i) (status : Status) : Chore i r (r.loseTransport id status)
  | empty {r : Reactor σ} (halone : T.rests → r.Alone i) :
      Chore i r ((r.updateChannel i ({ · with peers := [] })).setState i .closed)
  /-- A close while the channel opens is told as the outcome of that open. -/
  | closing {r : Reactor σ} : Chore i r (r.emit (.connectResponse i Status.closedHere none))
  | renew {r : Reactor σ} {id : TransportId} {t : Transport} {c : Connection}
      (ht : r.transports.get? id = some t) (hc : r.service.connection? t.handle = some c) :
      Chore i r (r.renewed id t c.wanted)
  | script {r : Reactor σ} (timer : Nat) (cancelled : Bool) : Chore i r { r with
      service := (Service.runScript (Application.onTimer timer cancelled r.world) r.service).1
      world := (Service.runScript (Application.onTimer timer cancelled r.world) r.service).2 }

/-- Any number of chores on these terms. -/
def Chores : Reactor σ → Reactor σ → Prop :=
  Relation.ReflTransGen fun r r' => ∃ i, T.concerns i ∧ Chore T i r r'

/-- The slots can be named, so that a channel's own transports are known; or it does not matter. -/
def Terms.Named (r : Reactor σ) : Prop := r.transports.Fits ∨ ¬ T.rests ∧ ∀ j, T.concerns j

/-- **Where an open may begin or go on**, and messages are relayed. -/
structure Ripe (r : Reactor σ) : Prop where
  waits : ∀ {i c}, r.channel? i = some c → c.pendingOpen = true → r.Bare i .opening
  clears : ∀ {i c}, r.channel? i = some c → c.state ≠ .opening → (r.cleared i c).Bare i .closed
  valid : ∀ {i c}, r.channel? i = some c → c.state = .opened → c.mask.isValid = true

variable {T}

namespace Chores

variable {r'' : Reactor σ}

theorem refl (r : Reactor σ) : Chores T r r := Relation.ReflTransGen.refl

theorem single (hi : T.concerns i) (h : Chore T i r r') : Chores T r r' :=
  Relation.ReflTransGen.single ⟨i, hi, h⟩

theorem trans (h : Chores T r r') (h' : Chores T r' r'') : Chores T r r'' := Relation.ReflTransGen.trans h h'

theorem tail (h : Chores T r r') (hi : T.concerns i) (h' : Chore T i r' r'') : Chores T r r'' :=
  h.trans (.single hi h')

/-- What is done under a condition only. -/
theorem ite {r₁ r₂ : Reactor σ} {p : Prop} [Decidable p] (h₁ : Chores T r r₁) (h₂ : Chores T r r₂) :
    Chores T r (if p then r₁ else r₂) := by
  split
  · exact h₁
  · exact h₂

/-- **What every chore keeps, a row of chores keeps.** -/
theorem keeps {P : Reactor σ → Prop} (hP : ∀ {i r r'}, T.concerns i → Chore T i r r' → P r → P r')
    (h : Chores T r r') (hr : P r) : P r' := by
  induction h with
  | refl => exact hr
  | tail _ hchore ih =>
    obtain ⟨i, hi, hchore⟩ := hchore
    exact hP hi hchore ih

end Chores

theorem chores_foldl {α : Type} {f : Reactor σ → α → Reactor σ} (hf : ∀ r x, Chores T r (f r x))
    (xs : List α) (r : Reactor σ) : Chores T r (xs.foldl f r) :=
  List.foldlRecOn xs f (.refl r) fun r' hr x _ => hr.trans (hf r' x)

/-! ## A chore is a path -/

theorem path_givenUp (r : Reactor σ) (i : Nat) (status : Status) : Path i r (r.givenUp i status) :=
  (((path_dropTimer r i).trans (path_releaseSocket _ i)).trans
    (path_updateChannel _ i fun _ => by exact ⟨rfl, rfl⟩)).trans (path_setState _ i _)

theorem path_openFailed (r : Reactor σ) (i : Nat) {status : Status}
    (hstatus : Host.ErrorsNonzero σ → status ≠ Status.ok) : Path i r (r.openFailed i status) := by
  have htold := (path_givenUp r i status).trans (path_refuse _ i hstatus)
  exact openFailed_cases (fun _ => .refl r) (fun _ _ _ => htold)
    fun _ _ _ => htold.trans (path_scheduleReconnect _ i)

theorem path_applyKeepAlive (r : Reactor σ) (d : Descriptor) : Path i r (r.applyKeepAlive d) := by
  unfold applyKeepAlive
  split
  · exact path_world r _
  · exact .refl _

theorem path_connected (r : Reactor σ) (i : Nat) (mask : ChannelMask) (d : Descriptor) :
    Path i r (r.connected i mask d) := by
  let r₁ := if mask.isTcp then (r.dropTimer i).applyKeepAlive d else r.dropTimer i
  let r₂ := (r₁.updateChannel i ({ · with lastStatus := Status.ok })).setState i .opened
  have h₁ : Path i r r₁ := (path_dropTimer r i).trans (.ite (path_applyKeepAlive _ d) (.refl _))
  have h₂ : Path i r r₂ := (h₁.trans (path_updateChannel _ _ fun _ => by exact ⟨rfl, rfl⟩)).trans
    (path_setState _ _ _)
  -- the channel's own fields have no part in the transport, so they may as well be set first
  exact h₂.trans (path_announce r₂ i mask d)

theorem path_connecting (r : Reactor σ) (i : Nat) (d : Descriptor) : Path i r (r.connecting i d) :=
  (path_watchFor r d _ _).trans (path_updateChannel _ i fun _ => by exact ⟨rfl, rfl⟩)

theorem path_unbound (r : Reactor σ) (i : Nat) (d : Descriptor) : Path i r (r.unbound i d) :=
  (path_updateChannel r i fun _ => by exact ⟨rfl, rfl⟩).trans (path_unwatch _ d)

theorem path_bound (r : Reactor σ) (i : Nat) (d : Descriptor) : Path i r (r.bound i d) :=
  ((path_watchFor r d _ _).trans (path_updateChannel _ i fun _ => by exact ⟨rfl, rfl⟩)).trans
    (path_setState _ i _)

theorem path_inquiring (r : Reactor σ) (i : Nat) : Path i r (r.inquiring i) :=
  path_updateChannel r i fun _ => ⟨rfl, rfl⟩

theorem path_unanswered (r : Reactor σ) (i : Nat) : Path i r (r.unanswered i) :=
  (path_now r).trans (path_updateChannel _ i fun _ => by exact ⟨rfl, rfl⟩)

theorem path_refreshed (r : Reactor σ) (i : Nat) (c : Channel) : Path i r (r.refreshed i c) :=
  (path_now r).trans (path_updateChannel _ i fun _ => by exact ⟨rfl, rfl⟩)

theorem path_answeredBy (r : Reactor σ) (a : Resolution) (c : Channel) :
    Path a.channel r (r.answeredBy a c) :=
  path_updateChannel r _ fun _ => ⟨rfl, rfl⟩

theorem path_begun (r : Reactor σ) (i : Nat) (mask : ChannelMask) : Path i r (r.begun i mask) := by
  have hopening : Path i r ((r.updateChannel i
      ({ · with mask := mask, pendingOpen := true, lastStatus := Status.ok })).setState i
        .opening) :=
    (path_updateChannel r i fun _ => by exact ⟨rfl, rfl⟩).trans (path_setState _ i _)
  exact .ite (hopening.trans (path_armTimer _ _ rfl)) hopening

theorem path_accepted (r : Reactor σ) (i : Nat) (mask : ChannelMask) (d : Descriptor) :
    Path i r (r.accepted i mask d) :=
  (path_applyKeepAlive r d).trans (path_announce _ i mask d)

/-- A new peer is announced, and its first message follows at once. -/
theorem path_greet (r : Reactor σ) (i : Nat) (mask : ChannelMask) (d : Descriptor)
    (payload : Bytes) : Path i r (((r.addTransport i mask d).2.emit
      (.connectResponse i Status.ok (some (r.addTransport i mask d).1))).emit
        (.packet i (r.addTransport i mask d).1 payload)) := by
  obtain ⟨s, w, hplays, heq⟩ := exists_emit (r.addTransport i mask d).2
    (.connectResponse i Status.ok (some (r.addTransport i mask d).1))
  refine path_emit ?_
  rw [heq]
  have hgreet : Path i r ({ r.announced i mask d with service := s }.record
      (.packet i (r.addTransport i mask d).1 payload)) := .single (.greet mask d hplays i payload)
  exact hgreet.trans (path_aside rfl rfl rfl)

theorem path_introduced (r : Reactor σ) (i : Nat) (mask : ChannelMask) (d : Descriptor)
    (peer : SocketAddress) (payload : Bytes) : Path i r ((r.introduced i mask d peer).emit
      (.packet i (r.addTransport i mask d).1 payload)) := by
  have hpeers : Path i r (r.updateChannel i fun c =>
      { c with peers := (peer, (r.addTransport i mask d).1.id) :: c.peers.filter (·.1 ≠ peer) }) :=
    path_updateChannel _ i fun _ => by exact ⟨rfl, rfl⟩
  -- the channel's list of peers has no part in the transport, so it may as well be set first
  exact hpeers.trans (path_greet _ i mask d payload)

omit [Host σ] in
/-- A known peer has a transport. -/
theorem exists_of_peerHandle? {peer : SocketAddress} {k : Handle} (h : r.peerHandle? i peer = some k) :
    ∃ id t, r.transports.get? id = some t ∧ t.handle = k := by
  simp only [peerHandle?, Option.bind_eq_bind, Option.bind_eq_some_iff, Option.pure_def] at h
  obtain ⟨-, -, id, -, t, ht, hk⟩ := h
  exact ⟨id, t, ht, Option.some.inj hk⟩

/-- A transport that was read is there still. -/
theorem get?_unpacked {id : TransportId} {t : Transport} (ht : r.transports.get? id = some t) :
    (r.unpacked id t).transports.get? id =
      some { t with assembler := (t.read r.options.framing r.world).assembler } := by
  simp [unpacked, received, Arena.get?_modify, ht]

theorem path_unpacked {id : TransportId} {t : Transport} (ht : r.transports.get? id = some t) :
    Path i r (r.unpacked id t) := by
  let got := t.read r.options.framing r.world
  have hreceived : Path i r (r.received id t) :=
    (path_world r got.world).trans (path_transport { r with world := got.world } id fun _ => by rfl)
  have ht₁ : (r.received id t).transports.get? id = some { t with assembler := got.assembler } := by
    simp [received, got, Arena.get?_modify, ht]
  exact hreceived.trans (path_packets (r := r.received id t) ht₁ t.handle.channel (r.arrivals t))

theorem Seek.path (h : Seek i r r') : Path i r r' := by
  cases h with
  | retarget hc h => exact path_updateChannel r i fun _ => by exact ⟨rfl, rfl⟩
  | refresh hc => exact path_refreshed r i _
  | inquire hc hdirty h => exact (path_inquiring r i).trans (path_aside rfl rfl rfl)
  | unanswered hc hdirty h => exact ((path_inquiring r i).trans (path_world _ _)).trans (path_unanswered _ i)

/-- **Every chore is a path of moves of its channel.** -/
theorem Chore.path (h : Chore T i r r') : Path i r r' := by
  cases h with
  | ask h => exact path_world r _
  | drop => exact path_dropTimer r i
  | settle => exact path_updateChannel r i fun _ => by exact ⟨rfl, rfl⟩
  | release => exact path_releaseSocket r i
  | port port => exact path_updateChannel r i fun _ => by exact ⟨rfl, rfl⟩
  | seek hseeks h => exact h.path
  | answer hhears ha hc haccepts => exact ha ▸ path_answeredBy r _ _
  | begin hopens hvalid hc hbare => exact path_begun r i _
  | fail h hopening => exact path_openFailed r i h.refusal.status_ne_ok
  | connect hc hclient h => exact (path_world r _).trans (path_connected _ i _ _)
  | connecting hc hclient h hbare => exact (path_world r _).trans (path_connecting _ i _)
  | finish hc hclient hsocket h =>
    exact ((path_world r _).trans (path_unbound _ i _)).trans (path_connected _ i _ _)
  | bind hc hserver h hbare => exact (path_world r _).trans (path_bound _ i _)
  | accept hc htcp h => exact (path_world r _).trans (path_accepted _ i _ _)
  | packet hrelays hpeer payload =>
    obtain ⟨id, t, ht, rfl⟩ := exists_of_peerHandle? hpeer
    exact path_packet ht i payload
  | greet hrelays hunknown h payload => exact (path_world r _).trans (path_introduced _ i _ _ _ payload)
  | read ht hi hok => exact path_unpacked ht
  | broken ht hi hfailed => exact hi ▸ (path_unpacked ht).trans (path_loseTransport (get?_unpacked ht) _)
  | flush now id => exact (idle_flushTransport r now id).path
  | lose ht hi status => exact hi ▸ path_loseTransport ht status
  | empty halone =>
    exact (path_updateChannel r i fun _ => by exact ⟨rfl, rfl⟩).trans (path_setState _ i .closed)
  | closing => exact path_refuse r i fun _ => by decide
  | renew ht hc => exact (path_transport r _ fun _ => by rfl).trans (path_watchFor _ _ _ _)
  | script timer cancelled =>
    have hplays := Service.plays_runScript (Application.onTimer timer cancelled r.world) r.service
    exact (path_plays hplays).trans (path_world _ _)

theorem Chores.trail (h : Chores T r r') : Trail r r' :=
  h.keeps (P := Trail r) (fun _ hchore htrail => htrail.trans hchore.path.trail) (.refl r)

/-- What is done for one channel only is a path of its moves. -/
theorem Chores.path (h : Chores (.own i) r r') : Path i r r' := by
  refine h.keeps (P := Path i r) (fun hown hchore hpath => ?_) (.refl r)
  cases (show _ = i from hown)
  exact hpath.trans hchore.path

end Reactor

end NetReactor
