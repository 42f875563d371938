import NetReactor.Proofs.Reactor.Crowd
import NetReactor.Proofs.Reactor.Deeds

/-!
# Indices in range

A handler looks its channel up once, where it is told an index from outside, and uses the index as it stands
from there on; a transport names its channel, and a new one takes a slot by its number. Here the handlers are
given again so that **each such use is checked**, and none gives an answer that would have used an index
out of range (`perform?` and its like). The checks never fail: every kept transport names a channel that
there is, and every free slot is there (`Indexed`), and that is so whatever the loop does.
-/

namespace NetReactor

variable {σ : Type}

/-- The slot that the next value takes is there. -/
def Arena.HasVacancy {α : Type} (a : Arena α) : Prop := a.withVacancy.2 < a.withVacancy.1.slots.size

instance {α : Type} (a : Arena α) : Decidable a.HasVacancy := by
  unfold Arena.HasVacancy
  infer_instance

namespace Reactor

/-! ## Handlers that check their indices -/

/-- The loop as it is, if there is a channel `i`. -/
def ranged (r : Reactor σ) (i : Nat) : Option (Reactor σ) :=
  if i < r.channels.length then some r else none

variable [Host σ]

def dropTimer? (r : Reactor σ) (i : Nat) : Option (Reactor σ) := do
  let r ← r.ranged i
  return r.dropTimer i

def armTimer? (r : Reactor σ) (i : Nat) (delay : Duration) (task : Task) : Option (Reactor σ) := do
  let r ← r.dropTimer? i
  let r ← r.ranged i
  return r.armed i delay task

def scheduleReconnect? (r : Reactor σ) (i : Nat) : Option (Reactor σ) :=
  match r.options.reconnectTimeout with
  | some delay => r.armTimer? i delay (.reconnect i)
  | none => some r

def addTransport? (r : Reactor σ) (i : Nat) (mask : ChannelMask) (d : Descriptor) :
    Option (Handle × Reactor σ) := do
  let r ← r.ranged i
  if r.transports.HasVacancy then return r.addTransport i mask d else none

def afterLoss? (r : Reactor σ) (i : Nat) (status : Status) : Option (Reactor σ) := do
  let c ← r.channel? i
  if c.mask.isClient then
    let r := r.lapsed i status
    if c.mask.isTcp && status ≠ Status.closedHere then r.scheduleReconnect? i else return r
  else return r

def loseTransport? (r : Reactor σ) (id : TransportId) (status : Status) : Option (Reactor σ) :=
  match r.transports.get? id with
  | none => some r
  | some t => do
    let r ← (r.parted id t status).ranged t.handle.channel
    r.afterLoss? t.handle.channel status

def closeTransport? (r : Reactor σ) (id : TransportId) : Option (Reactor σ) :=
  if r.transports.contains id then
    let (now, r) := r.now
    (r.flushTransport now id).2.loseTransport? id Status.closedHere
  else some r

def readTransport? (r : Reactor σ) (id : TransportId) : Option (Reactor σ) :=
  match r.transports.get? id with
  | none => some r
  | some t =>
    match (t.read r.options.framing r.world).failure with
    | some e => (r.unpacked id t).loseTransport? id e.status
    | none => some (r.unpacked id t)

def shutdownChannel? (r : Reactor σ) (i : Nat) : Option (Reactor σ) := do
  let r ← r.ranged i
  let r := r.silenced i
  let r ← (r.transportsOf i).foldlM closeTransport? r
  let r ← r.ranged i
  return (r.updateChannel i ({ · with peers := [] })).setState i .closed

def closeChannel? (r : Reactor σ) (i : Nat) : Option (Reactor σ) :=
  match r.channel? i with
  | none => some r
  | some c => do
    let r ← r.shutdownChannel? i
    return if c.state = .opening then r.emit (.connectResponse i Status.closedHere none) else r

def openFailed? (r : Reactor σ) (i : Nat) (status : Status) : Option (Reactor σ) := do
  let c ← r.channel? i
  let r := (r.givenUp i status).emit (.connectResponse i status none)
  if c.mask.isClient && c.mask.isTcp then r.scheduleReconnect? i else return r

def connected? (r : Reactor σ) (i : Nat) (mask : ChannelMask) (d : Descriptor) : Option (Reactor σ) := do
  let r ← r.dropTimer? i
  let r := if mask.isTcp then r.applyKeepAlive d else r
  let (h, r) ← r.addTransport? i mask d
  let r ← r.ranged i
  let r := (r.updateChannel i ({ · with lastStatus := Status.ok })).setState i .opened
  return r.emit (.connectResponse i Status.ok (some h))

def startConnect? (r : Reactor σ) (i : Nat) : Option (Reactor σ) := do
  let c ← r.channel? i
  match c.cache.addresses.head? with
  | none => r.openFailed? i Status.noAddress
  | some target =>
    match Host.connect c.mask.isTcp c.localPort target r.world with
    | (.ok (d, true), w) => connected? { r with world := w } i c.mask d
    | (.ok (d, false), w) => do
      let r := { r with world := w }
      let r ← r.ranged i
      return r.connecting i d
    | (.error e, w) => openFailed? { r with world := w } i e.status

def finishConnect? (r : Reactor σ) (i : Nat) : Option (Reactor σ) := do
  let c ← r.channel? i
  match c.socket with
  | none => return r
  | some d =>
    match Host.connectError d r.world with
    | (some e, w) => openFailed? { r with world := w } i e.status
    | (none, w) =>
      if (Host.peerAddress d w).isNone then return { r with world := w }
      else
        let r := { r with world := w }
        let r ← r.ranged i
        (r.unbound i d).connected? i c.mask d

def startServer? (r : Reactor σ) (i : Nat) : Option (Reactor σ) := do
  let c ← r.channel? i
  match c.endpoint.bindAddress?.or c.cache.addresses.head? with
  | none => r.openFailed? i Status.noAddress
  | some address =>
    match Host.bindServer c.mask.isTcp address r.world with
    | (.error e, w) => openFailed? { r with world := w } i e.status
    | (.ok d, w) =>
      let r := { r with world := w }
      let r ← r.ranged i
      return r.bound i d

def establish? (r : Reactor σ) (i : Nat) : Option (Reactor σ) := do
  let c ← r.channel? i
  if c.mask.isClient then r.startConnect? i else r.startServer? i

def startLookup? (r : Reactor σ) (i : Nat) : Option (Reactor σ) := do
  let c ← r.channel? i
  match Host.lookUp (r.lookupFor i c) r.world with
  | (true, w) => return { r.inquiring i with world := w, lookups := r.lookupFor i c :: r.lookups }
  | (false, w) =>
    let r := { r.inquiring i with world := w }
    let r ← r.ranged i
    (r.unanswered i).openFailed? i Status.lookupFailed

def onward? (r : Reactor σ) (i : Nat) : Option (Reactor σ) := do
  let r ← r.ranged i
  (r.updateChannel i ({ · with pendingOpen := false })).establish? i

def continueOpen? (r : Reactor σ) (i : Nat) : Option (Reactor σ) := do
  let c ← r.channel? i
  if !c.pendingOpen then return r
  else if c.mask.isServer && c.endpoint.bindAddress?.isSome then r.onward? i
  else
    match (c.cache.refresh r.options.lookupTtl r.now.1).state with
    | .ready => (r.refreshed i c).onward? i
    | .dirty => (r.refreshed i c).startLookup? i
    | .inProgress => return r.refreshed i c
    | .failed => (r.refreshed i c).openFailed? i Status.lookupFailed

def resolved? (r : Reactor σ) (a : Resolution) : Option (Reactor σ) :=
  match r.channel? a.channel with
  | none => some r
  | some c =>
    if !c.cache.accepts a.epoch then some r
    else if !c.pendingOpen then some (r.answeredBy a c)
    else if (c.cache.complete a.epoch a.answer a.time).state = .ready then
      (r.answeredBy a c).establish? a.channel
    else (r.answeredBy a c).openFailed? a.channel Status.lookupFailed

def cleared? (r : Reactor σ) (i : Nat) (c : Channel) : Option (Reactor σ) := do
  let r ← r.dropTimer? i
  if c.state = .opened then r.shutdownChannel? i else return r

def begun? (r : Reactor σ) (i : Nat) (mask : ChannelMask) : Option (Reactor σ) := do
  let r ← r.ranged i
  let r := (r.updateChannel i
    ({ · with mask := mask, pendingOpen := true, lastStatus := Status.ok })).setState i .opening
  if mask.isClient then r.armTimer? i r.options.connectTimeout (.connectTimeout i) else return r

def openChannel? (r : Reactor σ) (i : Nat) (mask : ChannelMask) : Option (Reactor σ) :=
  match r.channel? i with
  | none => some r
  | some c =>
    if !mask.isValid || c.state = .opening then some r
    else do
      let r ← r.cleared? i c
      let r ← r.begun? i mask
      r.continueOpen? i

def setRemote? (r : Reactor σ) (i : Nat) (host : Option String) (port : Option UInt16) :
    Option (Reactor σ) :=
  match r.channel? i with
  | none => some r
  | some c => (r.updateChannel i fun _ => c.retargeted host port).continueOpen? i

def accepted? (r : Reactor σ) (i : Nat) (mask : ChannelMask) (d : Descriptor) : Option (Reactor σ) := do
  let (h, r) ← (r.applyKeepAlive d).addTransport? i mask d
  return r.emit (.connectResponse i Status.ok (some h))

def acceptAll? (i : Nat) (mask : ChannelMask) (d : Descriptor) :
    (turns : Nat) → Reactor σ → Option (Reactor σ)
  | 0, r => some r
  | turns + 1, r => do
    let r ← r.ranged i
    match Host.accept d r.world with
    | (.ok (some (peer, _)), w) => do
      let r := { r with world := w }
      let r ← r.accepted? i mask peer
      acceptAll? i mask d turns r
    | (.ok none, w) => return { r with world := w }
    | (.error _, w) => return { r with world := w }

def introduced? (r : Reactor σ) (i : Nat) (mask : ChannelMask) (d : Descriptor) (peer : SocketAddress) :
    Option (Handle × Reactor σ) := do
  let (h, r) ← r.addTransport? i mask d
  let r ← r.ranged i
  let r := r.updateChannel i fun c => { c with peers := (peer, h.id) :: c.peers.filter (·.1 ≠ peer) }
  return (h, r.emit (.connectResponse i Status.ok (some h)))

def onDatagram? (r : Reactor σ) (i : Nat) (mask : ChannelMask) (d : Descriptor) (peer : SocketAddress)
    (payload : Bytes) : Option (Reactor σ) := do
  let r ← r.ranged i
  match r.peerHandle? i peer with
  | some h => return r.emit (.packet i h payload)
  | none =>
    match Host.localAddress d r.world with
    | none => return r
    | some server =>
      match Host.bindPeer server peer r.world with
      | (.error _, w) => return { r with world := w }
      | (.ok d, w) => do
        let r := { r with world := w }
        let (h, r) ← r.introduced? i mask d peer
        return r.emit (.packet i h payload)

def receiveDatagrams? (i : Nat) (mask : ChannelMask) (d : Descriptor) :
    (turns : Nat) → Reactor σ → Option (Reactor σ)
  | 0, r => some r
  | turns + 1, r => do
    let r ← r.ranged i
    match Host.receiveFrom d receiveRoom r.world with
    | (.ok (payload, peer), w) => do
      let r := { r with world := w }
      let r ← r.onDatagram? i mask d peer payload
      receiveDatagrams? i mask d turns r
    | (.error _, w) => return { r with world := w }

def serveChannel? (r : Reactor σ) (i : Nat) : Option (Reactor σ) :=
  match r.channel? i with
  | none => some r
  | some c =>
    match c.socket, c.mask.isClient, c.state with
    | some _, true, .opening => r.finishConnect? i
    | some d, false, .opened =>
      if c.mask.isTcp then acceptAll? i c.mask d acceptsPerTurn r
      else receiveDatagrams? i c.mask d acceptsPerTurn r
    | _, _, _ => some r

/-- A command, carried out as long as every index is in range. -/
def perform? (r : Reactor σ) : Command → Option (Reactor σ)
  | .openChannel i mask => r.openChannel? i mask
  | .closeChannel i => r.closeChannel? i
  | .closeTransport id => r.closeTransport? id
  | .reopen i id => do
    let r ← r.closeTransport? id
    match r.channel? i with
    | some c => r.openChannel? i c.mask
    | none => return r
  | .resolved a => r.resolved? a
  | .setRemote i host port => r.setRemote? i host port
  | .setLocalPort i port => some (r.updateChannel i ({ · with localPort := port }))

/-- A channel's socket that shows something, served as long as every index is in range. -/
def serveIfChannel? (r : Reactor σ) (x : Readiness Owner) : Option (Reactor σ) :=
  match x.token with
  | .channel i => r.serveChannel? i
  | _ => some r

/-- A transport that shows something, read as long as every index is in range. -/
def readIfTransport? (r : Reactor σ) (x : Readiness Owner) : Option (Reactor σ) :=
  match x.token with
  | .transport id => if x.readable || x.error then r.readTransport? id else some r
  | _ => some r

/-- A fired timer, dealt with as long as every index is in range. -/
def fire? (r : Reactor σ) (e : Timer.Expired Task) : Option (Reactor σ) :=
  match e.payload with
  | .connectTimeout i =>
    match r.takeTimer i e.handle with
    | (true, r) => do
      let c ← r.channel? i
      if c.state = .opening then r.openFailed? i Status.connectTimeout else return r
    | (false, r) => some r
  | .reconnect i =>
    match r.takeTimer i e.handle with
    | (true, r) => do
      let c ← r.channel? i
      if c.state = .closed then r.openChannel? i c.mask else return r
    | (false, r) => some r
  | .user _ => some (r.fire e)

/-! ## What is in range -/

/-- Every kept transport names a channel that there is, and the free slots are there. -/
structure Indexed (r : Reactor σ) : Prop where
  kept : ∀ {id h}, r.holder id = some h → h.channel < r.channels.length
  slots : r.transports.Sound

omit [Host σ] in
theorem Indexed.hasVacancy {r : Reactor σ} (hr : r.Indexed) : r.transports.HasVacancy :=
  (Arena.slot_withVacancy hr.slots).1

end Reactor

namespace Crowd

variable [Host σ] {x y : Crowd σ}

/-- **No step of the loop, or of a writer, takes an index out of range.** -/
theorem Step.indexed (h : x.Step y) (hx : x.reactor.Indexed) : y.reactor.Indexed := by
  obtain ⟨hkept, hslots⟩ := hx
  cases h with
  | check h data =>
    unfold Crowd.check
    split <;> exact ⟨hkept, hslots⟩
  | aside haside =>
    refine ⟨fun hh => ?_, haside.slots hslots⟩
    rw [haside.holder] at hh
    rw [haside.channels]
    exact hkept hh
  | flush hidle now id =>
    exact Reactor.flushTransport_cases (motive := Reactor.Indexed) ⟨hkept, hslots⟩
      fun _ _ _ _ => ⟨hkept, hslots⟩
  | @add hidle i hi mask d =>
    refine ⟨fun hh => ?_, Arena.sound_insertWith hslots _⟩
    rcases Reactor.holder_addTransport hh with ⟨-, rfl⟩ | hold
    · exact hi
    · exact hkept hold
  | @part id h status hloss =>
    refine ⟨fun hh => ?_, Arena.sound_remove hslots id⟩
    rw [Reactor.holder_remove] at hh
    split at hh
    · simp at hh
    · exact hkept hh
  | start hidle callback endpoints =>
    refine ⟨fun hh => ?_, Arena.sound_empty⟩
    simp at hh
  | _ => exact ⟨hkept, hslots⟩

theorem Steps.indexed (h : x.Steps y) (hx : x.reactor.Indexed) : y.reactor.Indexed := by
  induction h with
  | refl => exact hx
  | tail _ hstep ih => exact hstep.indexed ih

end Crowd

namespace Reactor

variable [Host σ] {r r' : Reactor σ} {i : Nat} {L : Option Loss}

theorem Indexed.after (hr : r.Indexed) (h : Runs r L r') : r'.Indexed := by
  obtain ⟨more, hsteps⟩ := h.steps [] []
  exact Crowd.Steps.indexed hsteps hr

theorem Runs.lt (h : Runs r L r') (hi : i < r.channels.length) : i < r'.channels.length := h.channels ▸ hi

/-- An open that waits goes on with its cache as it is now. -/
theorem continueOpen_of_some {c : Channel} (hc : r.channel? i = some c) : r.continueOpen i =
    if !c.pendingOpen then r
    else if c.mask.isServer && c.endpoint.bindAddress?.isSome then r.onward i
    else match (c.cache.refresh r.options.lookupTtl r.now.1).state with
      | .ready => (r.refreshed i c).onward i
      | .dirty => (r.refreshed i c).startLookup i
      | .inProgress => r.refreshed i c
      | .failed => (r.refreshed i c).openFailed i Status.lookupFailed := by
  simp only [continueOpen, hc]
  rfl

/-! ## The checks do not fail -/

section
variable (hi : i < r.channels.length)
include hi

omit [Host σ] in
@[simp] theorem ranged_eq : r.ranged i = some r := if_pos hi

omit [Host σ] in
theorem exists_channel : ∃ c, r.channel? i = some c := ⟨_, List.getElem?_eq_getElem hi⟩

omit [Host σ] in
theorem dropTimer?_eq : r.dropTimer? i = some (r.dropTimer i) := by simp [dropTimer?, hi]

theorem armTimer?_eq (delay : Duration) (task : Task) :
    r.armTimer? i delay task = some (r.armTimer i delay task) := by
  have hdropped := ((Runs.refl r).dropTimer i).lt hi
  simp only [armTimer?, dropTimer?_eq hi, Option.bind_eq_bind, Option.bind_some, ranged_eq hdropped]
  rfl

theorem scheduleReconnect?_eq : r.scheduleReconnect? i = some (r.scheduleReconnect i) := by
  cases hdelay : r.options.reconnectTimeout with
  | none => simp only [scheduleReconnect?, scheduleReconnect, hdelay]
  | some delay =>
    simp only [scheduleReconnect?, scheduleReconnect, hdelay]
    exact armTimer?_eq hi _ _

theorem afterLoss?_eq (status : Status) : r.afterLoss? i status = some (r.afterLoss i status) := by
  have hlapsed : i < (r.lapsed i status).channels.length :=
    (((Runs.refl r).updateChannel i _).setState i _).lt hi
  obtain ⟨c, hc⟩ := exists_channel hi
  simp only [afterLoss?, afterLoss, hc, Option.bind_eq_bind, Option.bind_some]
  split
  · split
    · exact scheduleReconnect?_eq hlapsed
    · rfl
  · rfl

theorem openFailed?_eq (status : Status) : r.openFailed? i status = some (r.openFailed i status) := by
  have hgiven : Runs r none (r.givenUp i status) :=
    ((((Runs.refl r).dropTimer i).releaseSocket i).updateChannel i _).setState i _
  have htold := (hgiven.answer i status none).lt hi
  obtain ⟨c, hc⟩ := exists_channel hi
  simp only [openFailed?, openFailed, hc, Option.bind_eq_bind, Option.bind_some]
  split
  · exact scheduleReconnect?_eq htold
  · rfl

end

section
variable (hr : r.Indexed)
include hr

theorem addTransport?_eq (hi : i < r.channels.length) (mask : ChannelMask) (d : Descriptor) :
    r.addTransport? i mask d = some (r.addTransport i mask d) := by
  simp [addTransport?, hi, hr.hasVacancy]

theorem loseTransport?_eq (id : TransportId) (status : Status) :
    r.loseTransport? id status = some (r.loseTransport id status) := by
  cases ht : r.transports.get? id with
  | none => simp only [loseTransport?, ht, loseTransport_of_none ht]
  | some t =>
    have hh : r.holder id = some t.handle := congrArg (Option.map _) ht
    have hkept := hr.kept hh
    have hparted := ((Runs.refl r).parted ht status).lt hkept
    simp only [loseTransport?, ht, ranged_eq hparted, Option.bind_eq_bind, Option.bind_some]
    rw [afterLoss?_eq hparted, loseTransport_of_some ht]

theorem closeTransport?_eq (id : TransportId) : r.closeTransport? id = some (r.closeTransport id) := by
  unfold closeTransport? closeTransport
  split
  · have hnow : Runs r none r.now.2 := (Runs.refl r).world _
    exact loseTransport?_eq (hr.after (hnow.flushTransport _ id)) id _
  · rfl

theorem readTransport?_eq (id : TransportId) : r.readTransport? id = some (r.readTransport id) := by
  cases ht : r.transports.get? id with
  | none => simp only [readTransport?, readTransport, ht]
  | some t =>
    have hunpacked := hr.after ((Runs.refl r).unpacked id t)
    rw [readTransport_of_some ht]
    cases hfailure : (t.read r.options.framing r.world).failure with
    | none => simp only [readTransport?, ht, hfailure]
    | some e =>
      simp only [readTransport?, ht, hfailure]
      exact loseTransport?_eq hunpacked id _

theorem closeTransports?_eq (ids : List TransportId) :
    ids.foldlM closeTransport? r = some (ids.foldl closeTransport r) := by
  induction ids generalizing r with
  | nil => rfl
  | cons id rest ih =>
    rw [List.foldlM_cons, closeTransport?_eq hr id]
    exact ih (hr.after (runs_closeTransport r id))

theorem shutdownChannel?_eq (hi : i < r.channels.length) :
    r.shutdownChannel? i = some (r.shutdownChannel i) := by
  have hsilenced : Runs r none (r.silenced i) := (chores_silenced trivial r).runs
  have hclosed : Runs r none (((r.silenced i).transportsOf i).foldl closeTransport (r.silenced i)) :=
    hsilenced.chores (T := .any) (chores_closeTransports fun _ _ _ _ => trivial)
  simp only [shutdownChannel?, ranged_eq hi, Option.bind_eq_bind, Option.bind_some]
  rw [closeTransports?_eq (hr.after hsilenced), Option.bind_some, ranged_eq (hclosed.lt hi)]
  rfl

theorem closeChannel?_eq (i : Nat) : r.closeChannel? i = some (r.closeChannel i) := by
  cases hc : r.channel? i with
  | none => simp only [closeChannel?, closeChannel, hc]
  | some c =>
    have hi := (Runs.refl r).lt_of_channel? hc
    simp [closeChannel?, closeChannel, hc, shutdownChannel?_eq hr hi]

theorem connected?_eq (hi : i < r.channels.length) (mask : ChannelMask) (d : Descriptor) :
    r.connected? i mask d = some (r.connected i mask d) := by
  let r₁ := if mask.isTcp then (r.dropTimer i).applyKeepAlive d else r.dropTimer i
  have hdropped : Runs r none (r.dropTimer i) := (Runs.refl r).dropTimer i
  have hready : Runs r none r₁ := .ite (hdropped.applyKeepAlive d) hdropped
  have hadded := (hready.addTransport hi mask d).lt hi
  simp only [connected?, dropTimer?_eq hi, Option.bind_eq_bind, Option.bind_some]
  rw [show (if mask.isTcp = true then (r.dropTimer i).applyKeepAlive d else r.dropTimer i) = r₁ from rfl,
    addTransport?_eq (hr.after hready) (hready.lt hi), Option.bind_some]
  simp only [ranged_eq hadded, Option.bind_some]
  rfl

theorem startConnect?_eq (hi : i < r.channels.length) :
    r.startConnect? i = some (r.startConnect i) := by
  obtain ⟨c', hc'⟩ := exists_channel hi
  refine startConnect_cases (fun hc => ?_) (fun c hc htarget => ?_) (fun c target d w hc htarget heq => ?_)
    (fun c target d w hc htarget heq => ?_) fun c target e w hc htarget heq => ?_
  · simp [hc'] at hc
  · simpa [startConnect?, hc, htarget] using openFailed?_eq hi _
  · simpa [startConnect?, hc, htarget, heq] using
      connected?_eq (hr.after ((Runs.refl r).world w)) hi c.mask d
  · simp [startConnect?, hc, htarget, heq, ranged, hi]
  · have hi' : i < ({ r with world := w } : Reactor σ).channels.length := hi
    simpa [startConnect?, hc, htarget, heq] using openFailed?_eq hi' _

theorem finishConnect?_eq (hi : i < r.channels.length) :
    r.finishConnect? i = some (r.finishConnect i) := by
  obtain ⟨c', hc'⟩ := exists_channel hi
  refine finishConnect_cases (fun hnone => ?_) (fun c d e w hc hsocket heq => ?_)
    (fun c d w hc hsocket heq hpeer => ?_) fun c d w hc hsocket heq hpeer => ?_
  · have hsocket : c'.socket = none := by simpa [hc'] using hnone
    simp [finishConnect?, hc', hsocket]
  · have hi' : i < ({ r with world := w } : Reactor σ).channels.length := hi
    simpa [finishConnect?, hc, hsocket, heq] using openFailed?_eq hi' _
  · simp [finishConnect?, hc, hsocket, heq, hpeer]
  · have hunbound : Runs r none ({ r with world := w }.unbound i d) :=
      (((Runs.refl r).world w).updateChannel i _).keep rfl
    have hconnected := connected?_eq (hr.after hunbound) (hunbound.lt hi) c.mask d
    simpa [finishConnect?, hc, hsocket, heq, hpeer, ranged, hi] using hconnected

omit hr in
theorem startServer?_eq (hi : i < r.channels.length) : r.startServer? i = some (r.startServer i) := by
  obtain ⟨c, hc⟩ := exists_channel hi
  cases haddress : c.endpoint.bindAddress?.or c.cache.addresses.head? with
  | none => simpa [startServer?, startServer, hc, haddress] using openFailed?_eq hi _
  | some address =>
    rcases hbind : Host.bindServer c.mask.isTcp address r.world with ⟨e | d, w⟩
    · have hi' : i < ({ r with world := w } : Reactor σ).channels.length := hi
      simpa [startServer?, startServer, hc, haddress, hbind] using openFailed?_eq hi' _
    · simp [startServer?, startServer, hc, haddress, hbind, ranged, hi, bound]

theorem establish?_eq (hi : i < r.channels.length) : r.establish? i = some (r.establish i) := by
  obtain ⟨c, hc⟩ := exists_channel hi
  simp only [establish?, establish, hc, Option.bind_eq_bind, Option.bind_some, Option.any_some]
  split
  · exact startConnect?_eq hr hi
  · exact startServer?_eq hi

omit hr in
theorem startLookup?_eq (hi : i < r.channels.length) : r.startLookup? i = some (r.startLookup i) := by
  obtain ⟨c', hc'⟩ := exists_channel hi
  have hinquiring : Runs r none (r.inquiring i) := (Runs.refl r).updateChannel i _
  refine startLookup_cases (fun hc => ?_) (fun c w hc heq => ?_) fun c w hc heq => ?_
  · simp [hc'] at hc
  · simp [startLookup?, hc, heq]
  · have hasked : i < ({ r.inquiring i with world := w } : Reactor σ).channels.length := hinquiring.lt hi
    have hnow : Runs r none { r.inquiring i with world := w }.now.2 := hinquiring.keep rfl
    have hanswered : Runs r none ({ r.inquiring i with world := w }.unanswered i) := hnow.updateChannel i _
    have hfailed := openFailed?_eq (hanswered.lt hi) Status.lookupFailed
    simp only [startLookup?, hc, heq, ranged_eq hasked, Option.bind_eq_bind, Option.bind_some]
    exact hfailed

theorem onward?_eq (hi : i < r.channels.length) : r.onward? i = some (r.onward i) := by
  have hset : Runs r none (r.updateChannel i ({ · with pendingOpen := false })) :=
    (Runs.refl r).updateChannel i _
  simp only [onward?, ranged_eq hi, Option.bind_eq_bind, Option.bind_some]
  exact establish?_eq (hr.after hset) (hset.lt hi)

theorem continueOpen?_eq (hi : i < r.channels.length) :
    r.continueOpen? i = some (r.continueOpen i) := by
  obtain ⟨c, hc⟩ := exists_channel hi
  have hnow : Runs r none r.now.2 := (Runs.refl r).world _
  have hrefreshed : Runs r none (r.refreshed i c) := hnow.updateChannel i _
  rw [continueOpen_of_some hc]
  simp only [continueOpen?, hc, Option.bind_eq_bind, Option.bind_some]
  split
  · rfl
  · split
    · exact onward?_eq hr hi
    · cases (c.cache.refresh r.options.lookupTtl r.now.1).state with
      | ready => exact onward?_eq (hr.after hrefreshed) (hrefreshed.lt hi)
      | dirty => exact startLookup?_eq (hrefreshed.lt hi)
      | inProgress => rfl
      | failed => exact openFailed?_eq (hrefreshed.lt hi) _

theorem resolved?_eq (a : Resolution) : r.resolved? a = some (r.resolved a) := by
  cases hc : r.channel? a.channel with
  | none => simp only [resolved?, resolved, hc]
  | some c =>
    have hanswered : Runs r none (r.answeredBy a c) := (Runs.refl r).updateChannel _ _
    have hi := hanswered.lt ((Runs.refl r).lt_of_channel? hc)
    simp only [resolved?, resolved, hc]
    split
    · rfl
    · split
      · rfl
      · split
        · exact establish?_eq (hr.after hanswered) hi
        · exact openFailed?_eq hi _

theorem cleared?_eq (hi : i < r.channels.length) (c : Channel) :
    r.cleared? i c = some (r.cleared i c) := by
  have hdropped : Runs r none (r.dropTimer i) := (Runs.refl r).dropTimer i
  simp only [cleared?, cleared, dropTimer?_eq hi, Option.bind_eq_bind, Option.bind_some]
  split
  · exact shutdownChannel?_eq (hr.after hdropped) (hdropped.lt hi)
  · rfl

omit hr in
theorem begun?_eq (hi : i < r.channels.length) (mask : ChannelMask) :
    r.begun? i mask = some (r.begun i mask) := by
  have hopening : Runs r none ((r.updateChannel i ({ · with
      mask := mask, pendingOpen := true, lastStatus := Status.ok })).setState i .opening) :=
    ((Runs.refl r).updateChannel i _).setState i _
  simp only [begun?, begun, ranged_eq hi, Option.bind_eq_bind, Option.bind_some]
  split
  · exact armTimer?_eq (hopening.lt hi) _ _
  · rfl

theorem openChannel?_eq (i : Nat) (mask : ChannelMask) :
    r.openChannel? i mask = some (r.openChannel i mask) := by
  cases hc : r.channel? i with
  | none => simp only [openChannel?, openChannel, hc]
  | some c =>
    have hi := (Runs.refl r).lt_of_channel? hc
    have hcleared : Runs r none (r.cleared i c) := runs_cleared r i c
    have hbegun := hcleared.begun i mask
    rw [openChannel_of_some hc]
    simp only [openChannel?, hc]
    split
    · rfl
    · rw [cleared?_eq hr hi]
      simp only [Option.bind_eq_bind, Option.bind_some, begun?_eq (hcleared.lt hi)]
      exact continueOpen?_eq (hr.after hbegun) (hbegun.lt hi)

theorem setRemote?_eq (i : Nat) (host : Option String) (port : Option UInt16) :
    r.setRemote? i host port = some (r.setRemote i host port) := by
  cases hc : r.channel? i with
  | none => simp only [setRemote?, setRemote, hc]
  | some c =>
    have hset : Runs r none (r.updateChannel i fun _ => c.retargeted host port) :=
      (Runs.refl r).updateChannel i _
    simp only [setRemote?, setRemote, hc]
    exact continueOpen?_eq (hr.after hset) (hset.lt ((Runs.refl r).lt_of_channel? hc))

theorem accepted?_eq (hi : i < r.channels.length) (mask : ChannelMask) (d : Descriptor) :
    r.accepted? i mask d = some (r.accepted i mask d) := by
  have hready : Runs r none (r.applyKeepAlive d) := (Runs.refl r).applyKeepAlive d
  simp only [accepted?, addTransport?_eq (hr.after hready) (hready.lt hi), Option.bind_eq_bind,
    Option.bind_some]
  rfl

theorem acceptAll?_eq (hi : i < r.channels.length) (mask : ChannelMask) (d : Descriptor) (turns : Nat) :
    acceptAll? i mask d turns r = some (acceptAll i mask d turns r) := by
  induction turns generalizing r with
  | zero => rfl
  | succ turns ih =>
    rcases haccept : Host.accept d r.world with ⟨e | peer?, w⟩
    · simp [acceptAll?, acceptAll, haccept, hi]
    · have hasked : Runs r none { r with world := w } := (Runs.refl r).world w
      cases peer? with
      | none => simp [acceptAll?, acceptAll, haccept, hi]
      | some peer =>
        have haccepted := hasked.accepted hi mask peer.1
        simp only [acceptAll?, acceptAll, haccept, ranged_eq hi, Option.bind_eq_bind, Option.bind_some,
          accepted?_eq (hr.after hasked) (hasked.lt hi)]
        exact ih (hr.after haccepted) (haccepted.lt hi)

theorem introduced?_eq (hi : i < r.channels.length) (mask : ChannelMask) (d : Descriptor)
    (peer : SocketAddress) : r.introduced? i mask d peer =
      some ((r.addTransport i mask d).1, r.introduced i mask d peer) := by
  have hadded := ((Runs.refl r).addTransport hi mask d).lt hi
  simp only [introduced?, addTransport?_eq hr hi, Option.bind_eq_bind, Option.bind_some, ranged_eq hadded]
  rfl

theorem onDatagram?_eq (hi : i < r.channels.length) (mask : ChannelMask) (d : Descriptor)
    (peer : SocketAddress) (payload : Bytes) :
    r.onDatagram? i mask d peer payload = some (r.onDatagram i mask d peer payload) := by
  simp only [onDatagram?, onDatagram, ranged_eq hi, Option.bind_eq_bind, Option.bind_some]
  cases r.peerHandle? i peer with
  | some h => rfl
  | none =>
    cases hserver : Host.localAddress d r.world with
    | none => simp [addPeer, hserver]
    | some server =>
      rcases hbind : Host.bindPeer server peer r.world with ⟨e | d', w⟩
      · simp [addPeer, hserver, hbind]
      · have hasked : Runs r none { r with world := w } := (Runs.refl r).world w
        simp only [addPeer, hserver, hbind, introduced?_eq (hr.after hasked) (hasked.lt hi),
          Option.bind_some]
        rfl

omit hr in
theorem runs_onDatagram (hi : i < r.channels.length) (mask : ChannelMask) (d : Descriptor)
    (peer : SocketAddress) (payload : Bytes) : Runs r none (r.onDatagram i mask d peer payload) :=
  onDatagram_cases (fun k _ => (Runs.refl r).packet i k payload) (.refl r)
    (fun _ _ w _ => (Runs.refl r).world w)
    fun _ d' w _ _ => (((Runs.refl r).world w).introduced hi mask d' peer).packet i _ payload

theorem receiveDatagrams?_eq (hi : i < r.channels.length) (mask : ChannelMask) (d : Descriptor)
    (turns : Nat) : receiveDatagrams? i mask d turns r = some (receiveDatagrams i mask d turns r) := by
  induction turns generalizing r with
  | zero => rfl
  | succ turns ih =>
    rcases hreceive : Host.receiveFrom d receiveRoom r.world with ⟨e | m, w⟩
    · simp [receiveDatagrams?, receiveDatagrams, hreceive, hi]
    · have hasked : Runs r none { r with world := w } := (Runs.refl r).world w
      have htaken := runs_onDatagram (r := { r with world := w }) hi mask d m.2 m.1
      simp only [receiveDatagrams?, receiveDatagrams, hreceive, ranged_eq hi, Option.bind_eq_bind,
        Option.bind_some, onDatagram?_eq (hr.after hasked) (hasked.lt hi)]
      exact ih ((hr.after hasked).after htaken) (htaken.lt hi)

theorem serveChannel?_eq (i : Nat) : r.serveChannel? i = some (r.serveChannel i) := by
  cases hc : r.channel? i with
  | none => simp only [serveChannel?, serveChannel, hc]
  | some c =>
    have hi := (Runs.refl r).lt_of_channel? hc
    simp only [serveChannel?, serveChannel, hc]
    cases c.socket with
    | none => rfl
    | some d =>
      cases c.mask.isClient with
      | true =>
        cases c.state with
        | opening => exact finishConnect?_eq hr hi
        | _ => rfl
      | false =>
        cases c.state with
        | opened =>
          simp only
          split
          · exact acceptAll?_eq hr hi _ _ _
          · exact receiveDatagrams?_eq hr hi _ _ _
        | _ => rfl

/-- **No command takes an index out of range.** -/
theorem perform?_eq (c : Command) : r.perform? c = some (r.perform c) := by
  cases c with
  | openChannel i mask => exact openChannel?_eq hr i mask
  | closeChannel i => exact closeChannel?_eq hr i
  | closeTransport id => exact closeTransport?_eq hr id
  | reopen i id =>
    have hclosed := hr.after (runs_closeTransport r id)
    simp only [perform?, perform, closeTransport?_eq hr, Option.bind_eq_bind, Option.bind_some]
    cases (r.closeTransport id).channel? i with
    | none => rfl
    | some c => exact openChannel?_eq hclosed i c.mask
  | resolved a => exact resolved?_eq hr a
  | setRemote i host port => exact setRemote?_eq hr i host port
  | setLocalPort i port => rfl

/-- **Nor does a channel's socket that shows something.** -/
theorem serveIfChannel?_eq (x : Readiness Owner) : r.serveIfChannel? x = some (r.serveIfChannel x) := by
  unfold serveIfChannel? serveIfChannel
  cases x.token with
  | channel i => exact serveChannel?_eq hr i
  | _ => rfl

/-- **Nor does a transport that shows something.** -/
theorem readIfTransport?_eq (x : Readiness Owner) : r.readIfTransport? x = some (r.readIfTransport x) := by
  unfold readIfTransport? readIfTransport
  cases x.token with
  | transport id =>
    simp only
    split
    · exact readTransport?_eq hr id
    · rfl
  | _ => rfl

/-- **Nor does a timer that fires.** -/
theorem fire?_eq (e : Timer.Expired Task) : r.fire? e = some (r.fire e) := by
  have htaken : ∀ i, Runs r none (r.updateChannel i ({ · with timer := none })) :=
    fun i => (Runs.refl r).updateChannel i _
  cases hpayload : e.payload with
  | user timer => simp only [fire?, hpayload]
  | connectTimeout i =>
    by_cases hslot : (r.channel? i).bind (·.timer) = some e.handle
    · obtain ⟨c, hc, htimer⟩ := Option.bind_eq_some_iff.1 hslot
      have hi := (htaken i).lt ((Runs.refl r).lt_of_channel? hc)
      simp only [fire?, fire, hpayload, takeTimer_of_some hc htimer, channel?_taken hc, Option.bind_eq_bind,
        Option.bind_some, Option.any_some, decide_eq_true_eq]
      split
      · exact openFailed?_eq hi _
      · rfl
    · simp only [fire?, fire, hpayload, takeTimer_of_ne hslot]
  | reconnect i =>
    by_cases hslot : (r.channel? i).bind (·.timer) = some e.handle
    · obtain ⟨c, hc, htimer⟩ := Option.bind_eq_some_iff.1 hslot
      simp only [fire?, fire, hpayload, takeTimer_of_some hc htimer, channel?_taken hc, Option.bind_eq_bind,
        Option.bind_some]
      split
      · exact openChannel?_eq (hr.after (htaken i)) i c.mask
      · rfl
    · simp only [fire?, fire, hpayload, takeTimer_of_ne hslot]

end

end Reactor

namespace Course

variable [Host σ] {x : Course σ}

/-- **Every index that the loop keeps is in range**, in every state of every run. -/
theorem Reachable.indexed (hx : x.Reachable) : x.reactor.Indexed := by
  obtain ⟨history, o, w, hsteps⟩ := hx.crowd
  refine Crowd.Steps.indexed hsteps ⟨fun hh => ?_, Arena.sound_empty⟩
  simp [Crowd.new] at hh

end Course

end NetReactor
