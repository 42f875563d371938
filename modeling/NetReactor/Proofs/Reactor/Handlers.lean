import NetReactor.Reactor.Turn

/-!
# Handlers in their parts

What the loop's handlers come to, in parts that a proof can speak of: a shutdown has **silenced** the
channel before it closes its transports, a loss has **parted** from the transport before the channel learns
of it, an open has **cleared** the channel before it begins. A handler with several outcomes has a principle
that names them (`startConnect_cases`), one that repeats has an induction (`acceptAll_ind`). Whatever a handler
keeps is proved along these, not by opening its definition again.
-/

namespace NetReactor

/-- The channel with a new target, as far as one is given. -/
def Channel.retargeted (c : Channel) (host : Option String) (port : Option UInt16) : Channel :=
  let c := match host with
    | some host => c.setHost host
    | none => c
  match port with
  | some port => c.setPort port
  | none => c

/-- A new target leaves everything else of a channel alone. -/
theorem Channel.exists_retargeted (c : Channel) (host : Option String) (port : Option UInt16) :
    ∃ e cache, c.retargeted host port = { c with endpoint := e, cache := cache } := by
  have hhost : ∀ (c : Channel) host, ∃ e cache, c.setHost host = { c with endpoint := e, cache := cache } := by
    intro c host
    unfold setHost
    split <;> exact ⟨_, _, rfl⟩
  have hport : ∀ (c : Channel) port, ∃ e cache, c.setPort port = { c with endpoint := e, cache := cache } := by
    intro c port
    unfold setPort
    split <;> exact ⟨_, _, rfl⟩
  rcases host with _ | host <;> rcases port with _ | port
  · exact ⟨c.endpoint, c.cache, rfl⟩
  · exact hport c port
  · exact hhost c host
  · obtain ⟨e, cache, heq⟩ := hhost c host
    obtain ⟨e', cache', heq'⟩ := hport (c.setHost host) port
    exact ⟨e', cache', heq'.trans (by rw [heq])⟩

namespace Reactor

variable {σ : Type} {r : Reactor σ} {i : Nat} {id : TransportId}

/-! ## Timers and interests -/

theorem takeTimer_of_some {g : Timer.Handle} {c : Channel} (hc : r.channel? i = some c)
    (htimer : c.timer = some g) : r.takeTimer i g = (true, r.updateChannel i ({ · with timer := none })) := by
  simp [takeTimer, hc, htimer]

theorem takeTimer_of_ne {g : Timer.Handle} (htimer : (r.channel? i).bind (·.timer) ≠ some g) :
    r.takeTimer i g = (false, r) := by
  simp only [takeTimer, if_neg htimer]

/-- A channel without its timer. -/
theorem channel?_taken {c : Channel} (hc : r.channel? i = some c) :
    (r.updateChannel i ({ · with timer := none })).channel? i = some { c with timer := none } := by
  have hc : r.channels[i]? = some c := hc
  simp [channel?, updateChannel, hc]

/-- A transport is watched for something else. -/
def renewed (r : Reactor σ) (id : TransportId) (t : Transport) (interest : Interest) : Reactor σ :=
  { r with transports := r.transports.modify id ({ · with interest := interest }) }.watchFor
    t.descriptor (.transport id) interest

/-- **A transport is examined**: it stays as it is, or is watched for what its connection wants. -/
@[elab_as_elim]
theorem updateInterest_cases {motive : Reactor σ → Prop} (hsame : motive r)
    (hrenewed : ∀ t c, r.transports.get? id = some t → r.service.connection? t.handle = some c →
      motive (r.renewed id t c.wanted)) :
    motive (r.updateInterest id) := by
  unfold updateInterest
  split
  · exact hsame
  · rename_i t ht
    split
    · exact hsame
    · rename_i c hc
      split
      · exact hsame
      · exact hrenewed t c ht hc

/-! ## Steps of an open -/

/-- The channel has taken the socket that it connects with. -/
def connecting (r : Reactor σ) (i : Nat) (d : Descriptor) : Reactor σ :=
  (r.watchFor d (.channel i) .write).updateChannel i ({ · with socket := some d })

/-- The channel has handed its socket over. -/
def unbound (r : Reactor σ) (i : Nat) (d : Descriptor) : Reactor σ :=
  (r.updateChannel i ({ · with socket := none })).unwatch d

/-- The channel serves with a socket. -/
def bound (r : Reactor σ) (i : Nat) (d : Descriptor) : Reactor σ :=
  ((r.watchFor d (.channel i) .read).updateChannel i
    ({ · with socket := some d, lastStatus := Status.ok })).setState i .opened

/-- The lookup of a channel's name. -/
def lookupFor (r : Reactor σ) (i : Nat) (c : Channel) : Lookup where
  channel := i
  epoch := c.cache.epoch
  host := c.endpoint.host
  port := c.endpoint.port
  resolver := r.options.resolver

/-- The channel waits for the answer to a lookup. -/
def inquiring (r : Reactor σ) (i : Nat) : Reactor σ :=
  r.updateChannel i fun c => { c with cache := c.cache.begin }

/-- The channel has taken in an answer, and no longer waits for one. -/
def answeredBy (r : Reactor σ) (a : Resolution) (c : Channel) : Reactor σ :=
  r.updateChannel a.channel ({ · with
    cache := c.cache.complete a.epoch a.answer a.time, pendingOpen := false })

/-! ## Transports -/

/-- A client's channel is closed after the loss of its transport. -/
def lapsed (r : Reactor σ) (i : Nat) (status : Status) : Reactor σ :=
  (r.updateChannel i ({ · with lastStatus := status })).setState i .closed

variable [Host σ]

/-- **After a loss** a channel stays as it is or lapses, and may plan its next attempt. -/
@[elab_as_elim]
theorem afterLoss_cases {status : Status} {motive : Reactor σ → Prop} (hsame : motive r)
    (hlapsed : ∀ c, r.channel? i = some c → c.mask.isClient = true → motive (r.lapsed i status))
    (hagain : ∀ c, r.channel? i = some c → c.mask.isClient = true → status ≠ Status.closedHere →
      motive ((r.lapsed i status).scheduleReconnect i)) :
    motive (r.afterLoss i status) := by
  unfold afterLoss
  split
  · exact hsame
  · rename_i c hc
    split
    · rename_i hclient
      simp only
      split
      · rename_i hagain'
        simp only [Bool.and_eq_true, decide_eq_true_eq] at hagain'
        exact hagain c hc hclient hagain'.2
      · exact hlapsed c hc hclient
    · exact hsame

theorem loseTransport_of_none (ht : r.transports.get? id = none) (status : Status) :
    r.loseTransport id status = r := by
  simp only [loseTransport, ht]

/-- The loop after a loss was told, before the channel is closed. -/
def parted (r : Reactor σ) (id : TransportId) (t : Transport) (status : Status) : Reactor σ :=
  let r := (r.unwatch t.descriptor).shutdownSocket t.descriptor
  let r := { r with service := r.service.updateConnection t.handle (·.close status) }
  let r := r.emit (.connectionLost t.handle.channel status t.handle)
  ({ r with transports := (r.transports.remove id).2 }.closeSocket t.descriptor).updateChannel
    t.handle.channel fun c => { c with peers := c.peers.filter (·.2 ≠ id) }

theorem loseTransport_of_some {t : Transport} (ht : r.transports.get? id = some t) (status : Status) :
    r.loseTransport id status = (r.parted id t status).afterLoss t.handle.channel status := by
  simp only [loseTransport, ht]
  rfl

theorem closeTransport_of_none (ht : r.transports.get? id = none) : r.closeTransport id = r := by
  have hnot : r.transports.contains id = false := by simp [Arena.contains, ht]
  simp only [closeTransport, hnot, Bool.false_eq_true, if_false]

/-- A transport's socket was read, and nothing is told yet. -/
def received (r : Reactor σ) (id : TransportId) (t : Transport) : Reactor σ :=
  { r with
    world := (t.read r.options.framing r.world).world
    transports := r.transports.modify id
      ({ · with assembler := (t.read r.options.framing r.world).assembler }) }

/-- The packets that a transport's socket yields. -/
def arrivals (r : Reactor σ) (t : Transport) : List Bytes :=
  (t.read r.options.framing r.world).packets.toList

/-- A transport's socket was read, and its packets are told. -/
def unpacked (r : Reactor σ) (id : TransportId) (t : Transport) : Reactor σ :=
  (r.received id t).emitAll ((r.arrivals t).map (.packet t.handle.channel t.handle))

theorem readTransport_of_some {t : Transport} (ht : r.transports.get? id = some t) :
    r.readTransport id = match (t.read r.options.framing r.world).failure with
      | some e => (r.unpacked id t).loseTransport id e.status
      | none => r.unpacked id t := by
  simp only [readTransport, ht]
  rfl

/-- **A transport is read**: its packets are told, and then its loss if reading failed. -/
@[elab_as_elim]
theorem readTransport_cases {motive : Reactor σ → Prop} (hnone : motive r)
    (hread : ∀ t, r.transports.get? id = some t → motive (r.unpacked id t))
    (hlost : ∀ t, r.transports.get? id = some t →
      ∀ status, motive ((r.unpacked id t).loseTransport id status)) :
    motive (r.readTransport id) := by
  cases ht : r.transports.get? id with
  | none => simpa only [readTransport, ht] using hnone
  | some t =>
    rw [readTransport_of_some ht]
    split
    · exact hlost t ht _
    · exact hread t ht

/-- The transports are flushed one after the other, and then those are lost that failed. -/
theorem exists_flushed {P : Reactor σ → Prop} (hnow : P r.now.2)
    (hflush : ∀ {r : Reactor σ} now id, P r → P (r.flushTransport now id).2) :
    ∃ (failed : List (TransportId × Status)) (r' : Reactor σ), P r' ∧
      r.flushTransports = failed.foldl (fun r f => r.loseTransport f.1 f.2) r' := by
  refine ⟨_, _, ?_, rfl⟩
  refine List.foldlRecOn (motive := fun x : List (TransportId × Status) × Reactor σ => P x.2) _ _ hnow
    fun x hx id _ => ?_
  have hflushed := hflush (Host.now r.world).1 id hx
  split
  all_goals
    rename_i r' heq
    have hsame : (x.2.flushTransport (Host.now r.world).1 id).2 = r' := congrArg Prod.snd heq
    rwa [hsame] at hflushed

/-- **What a flush keeps and a loss keeps, the flush of all transports keeps.** -/
theorem flushTransports_ind {P : Reactor σ → Prop} (hnow : P r.now.2)
    (hflush : ∀ {r : Reactor σ} now id, P r → P (r.flushTransport now id).2)
    (hlose : ∀ {r : Reactor σ} id status, P r → P (r.loseTransport id status)) :
    P r.flushTransports := by
  obtain ⟨failed, r', hflushed, heq⟩ := exists_flushed hnow hflush
  rw [heq]
  exact List.foldlRecOn failed _ hflushed fun _ hr f _ => hlose f.1 f.2 hr

/-! ## Channels -/

/-- The channel before its transports are closed: timer, open and socket are gone. -/
def silenced (r : Reactor σ) (i : Nat) : Reactor σ :=
  let r := (r.dropTimer i).updateChannel i ({ · with pendingOpen := false })
  let r := match (r.channel? i).bind (·.socket) with
    | some d => r.shutdownSocket d
    | none => r
  r.releaseSocket i

theorem shutdownChannel_eq (r : Reactor σ) (i : Nat) : r.shutdownChannel i =
    ((((r.silenced i).transportsOf i).foldl closeTransport (r.silenced i)).updateChannel i
      ({ · with peers := [] })).setState i .closed := rfl

/-! ## Opens -/

/-- The channel after an open was given up, before anybody is told. -/
def givenUp (r : Reactor σ) (i : Nat) (status : Status) : Reactor σ :=
  (((r.dropTimer i).releaseSocket i).updateChannel i
    ({ · with pendingOpen := false, lastStatus := status })).setState i .closed

/-- **An open that fails** is given up and told, and a stream client plans its next attempt. -/
@[elab_as_elim]
theorem openFailed_cases {status : Status} {motive : Reactor σ → Prop}
    (hnone : r.channel? i = none → motive r)
    (htold : ∀ c, r.channel? i = some c → (c.mask.isClient && c.mask.isTcp) = false →
      motive ((r.givenUp i status).emit (.connectResponse i status none)))
    (hagain : ∀ c, r.channel? i = some c → (c.mask.isClient && c.mask.isTcp) = true →
      motive (((r.givenUp i status).emit (.connectResponse i status none)).scheduleReconnect i)) :
    motive (r.openFailed i status) := by
  unfold openFailed
  split
  · rename_i hc
    exact hnone hc
  · rename_i c hc
    simp only
    split
    · rename_i hstream
      exact hagain c hc hstream
    · rename_i hstream
      exact htold c hc (Bool.eq_false_iff.2 hstream)

/-- **A client connects** at once, later, or not at all. -/
@[elab_as_elim]
theorem startConnect_cases {motive : Reactor σ → Prop} (hnone : r.channel? i = none → motive r)
    (hunknown : ∀ c, r.channel? i = some c → c.cache.addresses.head? = none →
      motive (r.openFailed i Status.noAddress))
    (hconnected : ∀ c target d w, r.channel? i = some c → c.cache.addresses.head? = some target →
      Host.connect c.mask.isTcp c.localPort target r.world = (.ok (d, true), w) →
        motive ({ r with world := w }.connected i c.mask d))
    (hconnecting : ∀ c target d w, r.channel? i = some c → c.cache.addresses.head? = some target →
      Host.connect c.mask.isTcp c.localPort target r.world = (.ok (d, false), w) →
        motive ({ r with world := w }.connecting i d))
    (hfailed : ∀ c target e w, r.channel? i = some c → c.cache.addresses.head? = some target →
      Host.connect c.mask.isTcp c.localPort target r.world = (.error e, w) →
        motive ({ r with world := w }.openFailed i e.status)) :
    motive (r.startConnect i) := by
  unfold startConnect
  split
  · rename_i hc
    exact hnone hc
  · rename_i c hc
    split
    · rename_i htarget
      exact hunknown c hc htarget
    · rename_i target htarget
      split
      · rename_i d w heq
        exact hconnected c target d w hc htarget heq
      · rename_i d w heq
        exact hconnecting c target d w hc htarget heq
      · rename_i e w heq
        exact hfailed c target e w hc htarget heq

/-- **A connecting socket shows something**: that it failed, nothing yet, or that it is connected. -/
@[elab_as_elim]
theorem finishConnect_cases {motive : Reactor σ → Prop}
    (hnone : (r.channel? i).bind (·.socket) = none → motive r)
    (hfailed : ∀ c d e w, r.channel? i = some c → c.socket = some d →
      Host.connectError d r.world = (some e, w) → motive ({ r with world := w }.openFailed i e.status))
    (hwaits : ∀ c d w, r.channel? i = some c → c.socket = some d →
      Host.connectError d r.world = (none, w) → Host.peerAddress d w = none → motive { r with world := w })
    (hconnected : ∀ c d w, r.channel? i = some c → c.socket = some d →
      Host.connectError d r.world = (none, w) → Host.peerAddress d w ≠ none →
        motive (({ r with world := w }.unbound i d).connected i c.mask d)) :
    motive (r.finishConnect i) := by
  unfold finishConnect
  split
  · rename_i hc
    exact hnone (by rw [hc]; rfl)
  · rename_i c hc
    split
    · rename_i hsocket
      exact hnone (by rw [hc]; exact hsocket)
    · rename_i d hsocket
      split
      · rename_i e w heq
        exact hfailed c d e w hc hsocket heq
      · rename_i w heq
        simp only
        split
        · rename_i hpeer
          exact hwaits c d w hc hsocket heq (Option.isNone_iff_eq_none.1 hpeer)
        · rename_i hpeer
          exact hconnected c d w hc hsocket heq (mt Option.isNone_iff_eq_none.2 hpeer)

/-- **A server is bound**, or not. -/
@[elab_as_elim]
theorem startServer_cases {motive : Reactor σ → Prop} (hnone : r.channel? i = none → motive r)
    (hunknown : ∀ c, r.channel? i = some c →
      c.endpoint.bindAddress?.or c.cache.addresses.head? = none →
        motive (r.openFailed i Status.noAddress))
    (hfailed : ∀ c address e w, r.channel? i = some c →
      Host.bindServer c.mask.isTcp address r.world = (.error e, w) →
        motive ({ r with world := w }.openFailed i e.status))
    (hbound : ∀ c address d w, r.channel? i = some c →
      Host.bindServer c.mask.isTcp address r.world = (.ok d, w) → motive ({ r with world := w }.bound i d)) :
    motive (r.startServer i) := by
  unfold startServer
  split
  · rename_i hc
    exact hnone hc
  · rename_i c hc
    split
    · rename_i haddress
      exact hunknown c hc haddress
    · rename_i address _
      split
      · rename_i e w heq
        exact hfailed c address e w hc heq
      · rename_i d w heq
        exact hbound c address d w hc heq

/-- The lookup that the channel waits for has failed. -/
def unanswered (r : Reactor σ) (i : Nat) : Reactor σ :=
  r.now.2.updateChannel i fun c =>
    { c with cache := c.cache.complete c.cache.epoch (.error (.kind .other)) r.now.1 }

/-- **A lookup is started**, or the open fails. -/
@[elab_as_elim]
theorem startLookup_cases {motive : Reactor σ → Prop} (hnone : r.channel? i = none → motive r)
    (hstarted : ∀ c w, r.channel? i = some c → Host.lookUp (r.lookupFor i c) r.world = (true, w) →
      motive { r.inquiring i with world := w, lookups := r.lookupFor i c :: r.lookups })
    (hfailed : ∀ c w, r.channel? i = some c → Host.lookUp (r.lookupFor i c) r.world = (false, w) →
      motive (({ r.inquiring i with world := w }.unanswered i).openFailed i Status.lookupFailed)) :
    motive (r.startLookup i) := by
  unfold startLookup
  split
  · rename_i hc
    exact hnone hc
  · rename_i c hc
    simp only
    split
    · rename_i w heq
      exact hstarted c w hc heq
    · rename_i w heq
      exact hfailed c w hc heq

/-- The open goes on with the addresses that are known. -/
def onward (r : Reactor σ) (i : Nat) : Reactor σ :=
  (r.updateChannel i ({ · with pendingOpen := false })).establish i

/-- The channel's addresses are seen at the present time. -/
def refreshed (r : Reactor σ) (i : Nat) (c : Channel) : Reactor σ :=
  r.now.2.updateChannel i ({ · with cache := c.cache.refresh r.options.lookupTtl r.now.1 })

/-- **An open that waits goes on** as what is known of its target allows. -/
@[elab_as_elim]
theorem continueOpen_cases {motive : Reactor σ → Prop}
    (hidle : (r.channel? i).any (·.pendingOpen) = false → motive r)
    (hbinds : ∀ c, r.channel? i = some c → c.pendingOpen = true →
      (c.mask.isServer && c.endpoint.bindAddress?.isSome) = true → motive (r.onward i))
    (hready : ∀ c, r.channel? i = some c → c.pendingOpen = true →
      (c.cache.refresh r.options.lookupTtl r.now.1).state = .ready → motive ((r.refreshed i c).onward i))
    (hdirty : ∀ c, r.channel? i = some c → c.pendingOpen = true →
      (c.cache.refresh r.options.lookupTtl r.now.1).state = .dirty →
        motive ((r.refreshed i c).startLookup i))
    (hwaits : ∀ c, r.channel? i = some c → c.pendingOpen = true →
      (c.cache.refresh r.options.lookupTtl r.now.1).state = .inProgress → motive (r.refreshed i c))
    (hfailed : ∀ c, r.channel? i = some c → c.pendingOpen = true →
      (c.cache.refresh r.options.lookupTtl r.now.1).state = .failed →
        motive ((r.refreshed i c).openFailed i Status.lookupFailed)) :
    motive (r.continueOpen i) := by
  unfold continueOpen
  split
  · rename_i hc
    exact hidle (by rw [hc]; rfl)
  · rename_i c hc
    cases hpending : c.pendingOpen with
    | false => simpa [hpending] using hidle (by simp [hc, hpending])
    | true =>
      simp only [Bool.not_true, Bool.false_eq_true, if_false]
      split
      · rename_i hbound
        exact hbinds c hc hpending hbound
      · split
        · rename_i hstate
          exact hready c hc hpending hstate
        · rename_i hstate
          exact hdirty c hc hpending hstate
        · rename_i hstate
          exact hwaits c hc hpending hstate
        · rename_i hstate
          exact hfailed c hc hpending hstate

/-- **An answer to a lookup** is spent, or is taken in; an open that waited for it goes on or fails. -/
@[elab_as_elim]
theorem resolved_cases {a : Resolution} {motive : Reactor σ → Prop}
    (hnone : r.channel? a.channel = none → motive r)
    (hspent : ∀ c, r.channel? a.channel = some c → c.cache.accepts a.epoch = false → motive r)
    (htaken : ∀ c, r.channel? a.channel = some c → c.cache.accepts a.epoch = true →
      c.pendingOpen = false → motive (r.answeredBy a c))
    (hready : ∀ c, r.channel? a.channel = some c → c.cache.accepts a.epoch = true →
      c.pendingOpen = true → (c.cache.complete a.epoch a.answer a.time).state = .ready →
        motive ((r.answeredBy a c).establish a.channel))
    (hfailed : ∀ c, r.channel? a.channel = some c → c.cache.accepts a.epoch = true →
      c.pendingOpen = true → motive ((r.answeredBy a c).openFailed a.channel Status.lookupFailed)) :
    motive (r.resolved a) := by
  unfold resolved
  split
  · rename_i hc
    exact hnone hc
  · rename_i c hc
    split
    · rename_i hspent'
      exact hspent c hc (by simpa using hspent')
    · rename_i haccepts
      have haccepts : c.cache.accepts a.epoch = true := by simpa using haccepts
      simp only
      split
      · rename_i hidle
        exact htaken c hc haccepts (by simpa using hidle)
      · rename_i hpending
        have hpending : c.pendingOpen = true := by simpa using hpending
        split
        · rename_i hstate
          exact hready c hc haccepts hpending hstate
        · exact hfailed c hc haccepts hpending

/-- The loop before an open begins. -/
def cleared (r : Reactor σ) (i : Nat) (c : Channel) : Reactor σ :=
  if c.state = .opened then (r.dropTimer i).shutdownChannel i else r.dropTimer i

/-- The loop as an open begins. -/
def begun (r : Reactor σ) (i : Nat) (mask : ChannelMask) : Reactor σ :=
  let r := (r.updateChannel i
    ({ · with mask := mask, pendingOpen := true, lastStatus := Status.ok })).setState i .opening
  if mask.isClient then r.armTimer i r.options.connectTimeout (.connectTimeout i) else r

theorem openChannel_of_some {c : Channel} (hc : r.channel? i = some c) {mask : ChannelMask} :
    r.openChannel i mask =
      if !mask.isValid || c.state = .opening then r
      else ((r.cleared i c).begun i mask).continueOpen i := by
  simp only [openChannel, hc]
  rfl

/-- **An open is ignored**, or begins once the channel is cleared. -/
@[elab_as_elim]
theorem openChannel_cases {mask : ChannelMask} {motive : Reactor σ → Prop} (hignored : motive r)
    (hbegun : ∀ c, r.channel? i = some c → mask.isValid = true → c.state ≠ .opening →
      motive (((r.cleared i c).begun i mask).continueOpen i)) :
    motive (r.openChannel i mask) := by
  cases hc : r.channel? i with
  | none => simpa only [openChannel, hc] using hignored
  | some c =>
    rw [openChannel_of_some hc]
    split
    · exact hignored
    · rename_i htaken
      simp only [Bool.or_eq_true, Bool.not_eq_true', decide_eq_true_eq, not_or, Bool.not_eq_false] at htaken
      exact hbegun c hc htaken.1 htaken.2

/-- **A new target is taken over**, and an open that waits goes on. -/
@[elab_as_elim]
theorem setRemote_cases {host : Option String} {port : Option UInt16} {motive : Reactor σ → Prop}
    (hnone : motive r)
    (hnew : ∀ c e cache, r.channel? i = some c →
      c.retargeted host port = { c with endpoint := e, cache := cache } →
        motive ((r.updateChannel i ({ · with endpoint := e, cache := cache })).continueOpen i)) :
    motive (r.setRemote i host port) := by
  unfold setRemote
  split
  · exact hnone
  · rename_i c hc
    obtain ⟨e, cache, heq⟩ := c.exists_retargeted host port
    have hupdate : r.updateChannel i (fun _ => c.retargeted host port) =
        r.updateChannel i ({ · with endpoint := e, cache := cache }) := by
      have hc' : r.channels[i]? = some c := hc
      simp only [updateChannel, List.modify_eq_set, hc', heq, Option.getD_some]
    have hgoes := hnew c e cache hc heq
    rw [← hupdate] at hgoes
    exact hgoes

/-! ## Serving -/

section Serving

variable {mask : ChannelMask} {d : Descriptor}

/-- **What asking keeps and a new connection keeps, all waiting connections keep.** -/
theorem acceptAll_ind {P : Reactor σ → Prop}
    (hasked : ∀ {r : Reactor σ} answer w, P r → Host.accept d r.world = (answer, w) →
      (∀ peer, answer ≠ .ok (some peer)) → P { r with world := w })
    (haccepted : ∀ {r : Reactor σ} peer address w, P r →
      Host.accept d r.world = (.ok (some (peer, address)), w) →
        P ({ r with world := w }.accepted i mask peer))
    (turns : Nat) (hr : P r) : P (acceptAll i mask d turns r) := by
  induction turns generalizing r with
  | zero => exact hr
  | succ turns ih =>
    unfold acceptAll
    split
    · rename_i peer address w heq
      exact ih (haccepted peer address w hr heq)
    · rename_i w heq
      exact hasked _ w hr heq nofun
    · rename_i e w heq
      exact hasked _ w hr heq nofun

/-- A new peer of a datagram server is listed and announced. -/
def introduced (r : Reactor σ) (i : Nat) (mask : ChannelMask) (d : Descriptor)
    (peer : SocketAddress) : Reactor σ :=
  let (h, r) := r.addTransport i mask d
  (r.updateChannel i fun c => { c with peers := (peer, h.id) :: c.peers.filter (·.1 ≠ peer) }).emit
    (.connectResponse i Status.ok (some h))

/-- **A message comes** from a peer that is known, from one that cannot be served, or from a new one. -/
@[elab_as_elim]
theorem onDatagram_cases {peer : SocketAddress} {payload : Bytes} {motive : Reactor σ → Prop}
    (hknown : ∀ h, r.peerHandle? i peer = some h → motive (r.emit (.packet i h payload)))
    (hhomeless : motive r)
    (hrefused : ∀ server e w, Host.bindPeer server peer r.world = (.error e, w) →
      motive { r with world := w })
    (hgreeted : ∀ server d' w, r.peerHandle? i peer = none →
      Host.bindPeer server peer r.world = (.ok d', w) →
        motive (({ r with world := w }.introduced i mask d' peer).emit
          (.packet i ({ r with world := w }.addTransport i mask d').1 payload))) :
    motive (r.onDatagram i mask d peer payload) := by
  unfold onDatagram
  split
  · rename_i h hpeer
    exact hknown h hpeer
  · rename_i hunknown
    unfold addPeer
    cases Host.localAddress d r.world with
    | none => exact hhomeless
    | some server =>
      simp only
      rcases hbind : Host.bindPeer server peer r.world with ⟨e | d', w⟩
      · exact hrefused server e w hbind
      · exact hgreeted server d' w hunknown hbind

/-- **What asking keeps and a message keeps, all waiting messages keep.** -/
theorem receiveDatagrams_ind {P : Reactor σ → Prop}
    (hasked : ∀ {r : Reactor σ} answer w, P r → Host.receiveFrom d receiveRoom r.world = (answer, w) →
      P { r with world := w })
    (hmessage : ∀ {r : Reactor σ} payload peer, P r → P (r.onDatagram i mask d peer payload))
    (turns : Nat) (hr : P r) : P (receiveDatagrams i mask d turns r) := by
  induction turns generalizing r with
  | zero => exact hr
  | succ turns ih =>
    unfold receiveDatagrams
    split
    · rename_i payload peer w heq
      exact ih (hmessage payload peer (hasked _ w hr heq))
    · rename_i e w heq
      exact hasked _ w hr heq

end Serving

/-- **A channel's socket shows something**: a client goes on connecting, a server takes what comes. -/
@[elab_as_elim]
theorem serveChannel_cases {motive : Reactor σ → Prop} (hidle : motive r)
    (hconnects : ∀ c, r.channel? i = some c → c.mask.isClient = true → c.state = .opening →
      motive (r.finishConnect i))
    (haccepts : ∀ c d, r.channel? i = some c → c.mask.isTcp = true →
      motive (acceptAll i c.mask d acceptsPerTurn r))
    (hreceives : ∀ c d, r.channel? i = some c → c.state = .opened → c.mask.isClient = false →
      c.mask.isTcp = false → motive (receiveDatagrams i c.mask d acceptsPerTurn r)) :
    motive (r.serveChannel i) := by
  unfold serveChannel
  split
  · exact hidle
  · rename_i c hc
    split
    · rename_i hclient hopening
      exact hconnects c hc hclient hopening
    · rename_i hserver hopened
      split
      · rename_i htcp
        exact haccepts c _ hc htcp
      · rename_i hudp
        exact hreceives c _ hc hopened hserver (Bool.eq_false_iff.2 hudp)
    · exact hidle

/-! ## Timers that fire, and the end of a run -/

/-- **A timer that fires**: one of the application's is called back; one of a channel's is taken out of its
slot, and leads to something if it is still there and the channel still waits for it. -/
@[elab_as_elim]
theorem fire_cases {e : Timer.Expired Task} {motive : Reactor σ → Prop}
    (huser : ∀ timer, e.payload = .user timer → motive { r with
      service := (Service.runScript (Application.onTimer timer e.cancelled r.world) r.service).1
      world := (Service.runScript (Application.onTimer timer e.cancelled r.world) r.service).2 })
    (hlate : ∀ i, e.payload = .connectTimeout i ∨ e.payload = .reconnect i →
      (r.channel? i).bind (·.timer) ≠ some e.handle → motive r)
    (htaken : ∀ i c, e.payload = .connectTimeout i ∨ e.payload = .reconnect i → r.channel? i = some c →
      c.timer = some e.handle → motive (r.updateChannel i ({ · with timer := none })))
    (hfailed : ∀ i c, e.payload = .connectTimeout i → r.channel? i = some c → c.timer = some e.handle →
      c.state = .opening →
      motive ((r.updateChannel i ({ · with timer := none })).openFailed i Status.connectTimeout))
    (hopened : ∀ i c, e.payload = .reconnect i → r.channel? i = some c → c.timer = some e.handle →
      c.state = .closed →
      motive ((r.updateChannel i ({ · with timer := none })).openChannel i c.mask)) :
    motive (r.fire e) := by
  have hslot : ∀ i, (∃ c, r.channel? i = some c ∧ c.timer = some e.handle) ∨
      (r.channel? i).bind (·.timer) ≠ some e.handle := fun i =>
    (Decidable.em _).imp_left Option.bind_eq_some_iff.1
  cases hpayload : e.payload with
  | user timer =>
    simp only [fire, hpayload]
    exact huser timer hpayload
  | connectTimeout i =>
    rcases hslot i with ⟨c, hc, htimer⟩ | hgone
    · simp only [fire, hpayload, takeTimer_of_some hc htimer, channel?_taken hc, Option.any_some,
        decide_eq_true_eq]
      split
      · rename_i hopening
        exact hfailed i c hpayload hc htimer hopening
      · exact htaken i c (.inl hpayload) hc htimer
    · simpa only [fire, hpayload, takeTimer_of_ne hgone] using hlate i (.inl hpayload) hgone
  | reconnect i =>
    rcases hslot i with ⟨c, hc, htimer⟩ | hgone
    · simp only [fire, hpayload, takeTimer_of_some hc htimer, channel?_taken hc]
      split
      · rename_i hclosed
        exact hopened i c hpayload hc htimer hclosed
      · exact htaken i c (.inr hpayload) hc htimer
    · simpa only [fire, hpayload, takeTimer_of_ne hgone] using hlate i (.inr hpayload) hgone

/-- What a teardown closes, before timers and commands are dropped. -/
def closed (r : Reactor σ) : Reactor σ :=
  let r := r.transports.ids.foldl (fun r id => r.loseTransport id Status.closedHere) r
  (List.range r.channels.length).foldl shutdownChannel r

theorem teardown_eq (r : Reactor σ) :
    r.teardown = { r.closed with service := { r.closed.service with
      timers := r.closed.service.timers.clear, commands := [], running := false } }.unwatch
        wakeDescriptor := rfl

end Reactor

end NetReactor
