import NetReactor.Echo.Session
import NetReactor.Proofs.Echo.Balance
import NetReactor.Proofs.Reactor.Mail
import NetReactor.Proofs.Reactor.Survey

/-!
# The echo server

Every handler of a server's loop keeps all connections in balance, whatever the sockets answer: events that
are no packets, timers and channels have no part in it (`scene_armTimer` and its like), and what a handler
does to sockets and transports is one of the deeds of `Faithful`.
-/

namespace NetReactor

open Timer (Expired)

theorem ChannelMask.isTcp_of_isValid {m : ChannelMask} (h : m.isValid = true) (hudp : m.isUdp = false) :
    m.isTcp = true := by
  simp only [isValid, hudp, Bool.and_eq_true, bne_iff_ne, Bool.not_eq_false] at h
  exact h.2

namespace Echo

section
variable {σ : Type} [Host σ] {port : UInt16}

/-- What the echo is about of a server's loop. -/
def scene (r : Session (.server port) (Wire σ)) : Scene where
  transports := r.transports
  masks := r.channels.map (·.mask)
  options := r.options
  shared := r.service.options
  callback := r.service.callback
  commands := r.service.commands
  events := r.service.events
  connections := r.service.connections
  heard := Wire.heard r.world
  said := Wire.said r.world

variable (r : Session (.server port) (Wire σ))

/-! ## What has no part in the echo -/

theorem scene_now : scene r.now.2 = scene r := rfl

omit [Host σ] in
theorem scene_updateChannel {r : Session (.server port) (Wire σ)} {i : Nat} {f : Channel → Channel}
    (hf : ∀ c, r.channel? i = some c → (f c).mask = c.mask) : scene (r.updateChannel i f) = scene r := by
  have hmasks : (r.channels.modify i f).map (·.mask) = r.channels.map (·.mask) := by
    refine List.ext_getElem? fun j => ?_
    rw [List.getElem?_map, List.getElem?_map, List.getElem?_modify]
    by_cases hj : i = j
    · subst hj
      cases hc : r.channels[i]? with
      | none => rfl
      | some c => simp [hf c hc]
    · cases r.channels[j]? <;> simp [hj]
  simp only [scene, Reactor.updateChannel, hmasks]

omit [Host σ] in
theorem scene_setState (i : Nat) (state : ChannelState) : scene (r.setState i state) = scene r :=
  scene_updateChannel (f := ({ · with state := state })) fun _ _ => rfl

omit [Host σ] in
theorem scene_dropTimer (i : Nat) : scene (r.dropTimer i) = scene r := by
  unfold Reactor.dropTimer
  split
  · exact scene_updateChannel (f := ({ · with timer := none })) fun _ _ => rfl
  · rfl

theorem scene_armTimer (i : Nat) (delay : Duration) (task : Task) :
    scene (r.armTimer i delay task) = scene r := by
  refine Eq.trans ?_ (scene_dropTimer r i)
  exact scene_updateChannel (f := ({ · with timer := some _ })) fun _ _ => rfl

theorem scene_scheduleReconnect (i : Nat) : scene (r.scheduleReconnect i) = scene r := by
  unfold Reactor.scheduleReconnect
  split
  · exact scene_armTimer r i _ _
  · rfl

theorem scene_applyKeepAlive (d : Descriptor) : scene (r.applyKeepAlive d) = scene r := by
  unfold Reactor.applyKeepAlive
  split
  · rfl
  · rfl

theorem scene_releaseSocket (i : Nat) : scene (r.releaseSocket i) = scene r := by
  have hgone : scene (r.updateChannel i ({ · with socket := none })) = scene r :=
    scene_updateChannel fun _ _ => by rfl
  unfold Reactor.releaseSocket
  split
  · exact hgone
  · rfl

theorem scene_afterLoss (i : Nat) (status : Status) : scene (r.afterLoss i status) = scene r := by
  have hlapsed : scene (r.lapsed i status) = scene r :=
    (scene_setState _ i _).trans (scene_updateChannel fun _ _ => by rfl)
  refine Reactor.afterLoss_cases (motive := fun r' => scene r' = scene r) rfl (fun _ _ _ => hlapsed) ?_
  exact fun _ _ _ _ => (scene_scheduleReconnect _ i).trans hlapsed

theorem scene_givenUp (i : Nat) (status : Status) : scene (r.givenUp i status) = scene r := by
  refine (scene_setState _ i _).trans ((scene_updateChannel fun _ _ => by rfl).trans ?_)
  exact (scene_releaseSocket _ i).trans (scene_dropTimer r i)

end

/-! ## What is told -/

section
variable {σ : Type} [Host σ] {port : UInt16} {r : Session (.server port) (Wire σ)} {o : Options}
variable {spared : Option TransportId} {rest : List Event}

/-- **Every packet is written back to the connection it came on**, and no other event leads to anything. -/
theorem Faithful.deliver (ho : o.sendTimeout = none) {e : Event}
    (hr : Faithful o (e :: rest) spared (scene r)) (callback : Nat) :
    Faithful o rest spared (scene { r with
      service := (Service.deliver callback e r.service r.world).1
      world := (Service.deliver callback e r.service r.world).2 }) := by
  cases e with
  | connectResponse channel status h => exact hr.skip fun _ _ => rfl
  | connectionLost channel status h => exact hr.skip fun _ _ => rfl
  | packet channel h payload =>
    let s := { r.service with delivered := r.service.delivered.push (callback, .packet channel h payload) }
    have hoptions : s.options = o := hr.shared
    have hwrite : s.write (Host.now r.world).1 h payload =
        if s.isLive h then (s.updateConnection h (·.enqueue (.new payload none))).wake else s := by
      simp only [Service.write, Options.sendDeadline, hoptions, ho, Option.bind_none]
    show Faithful o rest spared (scene { r with
      service := s.write (Host.now r.world).1 h payload, world := (Host.now r.world).2 })
    rw [hwrite]
    by_cases hlive : s.isLive h = true
    · rw [if_pos hlive]
      exact hr.write
    · rw [if_neg hlive]
      refine hr.discard fun c hc => ?_
      have hc : s.connection? h = some c := hc
      rw [Service.isLive, hc, Option.any_some] at hlive
      exact Bool.eq_false_iff.2 hlive

/-- A batch stands before what waits, and is written back in order. -/
theorem Faithful.deliverAll (ho : o.sendTimeout = none) (callback : Nat) (batch : List Event)
    (hr : Faithful o (batch ++ rest) spared (scene r)) :
    Faithful o rest spared (scene { r with
      service := (Service.deliverAll callback batch r.service r.world).1
      world := (Service.deliverAll callback batch r.service r.world).2 }) := by
  induction batch generalizing r with
  | nil => exact hr
  | cons e batch ih => exact ih (Faithful.deliver ho hr callback)

/-- **An event that is emitted waits behind what was told before, or is delivered where nothing waits.** -/
theorem Faithful.emit (ho : o.sendTimeout = none) {e : Event}
    (hr : Faithful o (r.service.events ++ e :: rest) spared (scene r)) :
    Faithful o ((r.emit e).service.events ++ rest) spared (scene (r.emit e)) := by
  have hoptions : r.options.deferEvents = o.deferEvents := congrArg Options.deferEvents hr.options
  rw [Reactor.emit]
  show Faithful o (Service.events (Reactor.service (if r.options.deferEvents then _ else _)) ++ rest) spared
    (scene (if r.options.deferEvents then _ else _))
  cases hdefer : o.deferEvents with
  | true =>
    rw [hoptions, hdefer, if_pos rfl]
    have hpending : r.service.events ++ e :: rest = EventQueue.push r.service.events e ++ rest := by
      simp [EventQueue.push]
    rw [hpending] at hr
    exact hr.queue fun h => absurd (hdefer.symm.trans h) (Ne.symm Bool.false_ne_true)
  | false =>
    obtain ⟨callback, hcallback⟩ := Option.isSome_iff_exists.1 hr.callback
    have hcallback : r.service.callback = some callback := hcallback
    have hnone : r.service.events = [] := hr.prompt hdefer
    rw [hoptions, hdefer, if_neg Bool.false_ne_true]
    rw [hnone, List.nil_append] at hr
    have hdelivered := Faithful.deliver (r := r.record e) ho hr callback
    have hwaiting : (Service.deliver callback e (r.record e).service (r.record e).world).1.events = [] :=
      (congrArg Mail.waiting (Service.mail_deliver callback e _ _)).trans hnone
    simp only [show (r.record e).service.callback = some callback from hcallback, hwaiting]
    exact hdelivered

theorem Faithful.emitAll (ho : o.sendTimeout = none) (events : List Event)
    (hr : Faithful o (r.service.events ++ (events ++ rest)) spared (scene r)) :
    Faithful o ((r.emitAll events).service.events ++ rest) spared (scene (r.emitAll events)) := by
  induction events generalizing r with
  | nil => exact hr
  | cons e events ih => exact ih (Faithful.emit ho hr)

/-- What is no packet may be told at any time. -/
theorem Faithful.announce (ho : o.sendTimeout = none) {e : Event} (he : Command.isPacket e = false)
    (hr : Faithful o r.service.events spared (scene r)) :
    Faithful o (r.emit e).service.events spared (scene (r.emit e)) := by
  have htold : Faithful o ((r.emit e).service.events ++ []) spared (scene (r.emit e)) :=
    Faithful.emit ho (hr.tell he)
  rwa [List.append_nil] at htold

end

/-! ## Connections come and go -/

/-- **What is held is open and watched, and every connection echoes faithfully.** -/
structure Sound {σ : Type} [Host σ] {port : UInt16} (k : Kernel σ) (o : Options)
    (r : Session (.server port) (Wire σ)) : Prop where
  secure : r.Secure (k.onWire _)
  faithful : Faithful o r.service.events none (scene r)

section
variable {σ : Type} [Host σ] {port : UInt16} {r r' : Session (.server port) (Wire σ)} {k : Kernel σ}
variable {o : Options} {i : Nat} {id : TransportId} {t : Transport} {d : Descriptor}

omit [Host σ] in
theorem Faithful.of_scene {spared : Option TransportId} (hr : Faithful o r.service.events spared (scene r))
    (hscene : scene r' = scene r) : Faithful o r'.service.events spared (scene r') := by
  have hevents : r'.service.events = r.service.events := congrArg Scene.events hscene
  rwa [hevents, hscene]

/-- What changes no hands and has no part in the echo. -/
theorem Sound.aside (hr : Sound k o r) (hsteady : r.Steady (k.onWire _) r') (hscene : scene r' = scene r) :
    Sound k o r' :=
  ⟨hsteady.secure hr.secure, hr.faithful.of_scene hscene⟩

/-- A channel's socket and mask are all that matters of it. -/
theorem Sound.updateChannel (hr : Sound k o r) (i : Nat) {f : Channel → Channel}
    (hf : ∀ c, (f c).socket = c.socket ∧ (f c).mask = c.mask) : Sound k o (r.updateChannel i f) :=
  hr.aside (Reactor.steady_updateChannel r i fun c _ => (hf c).1) (scene_updateChannel fun c _ => (hf c).2)

/-- Two transports hold two descriptors. -/
theorem apart_of_secure (hr : r.Secure (k.onWire _)) : (scene r).Apart := by
  intro id id' t t' ht ht' hsame
  have hholds : ∀ {id t}, r.transports.get? id = some t → r.custody.Holds t.descriptor (.transport id) :=
    fun ht => ⟨_, congrArg (Option.map _) ht⟩
  exact Owner.transport.inj (hr.exact.holder (hholds ht) (hsame ▸ hholds ht'))

theorem Sound.emit (ho : o.sendTimeout = none) (hr : Sound k o r) {e : Event}
    (he : Command.isPacket e = false) : Sound k o (r.emit e) :=
  ⟨(Reactor.steady_emit r e).secure hr.secure, hr.faithful.announce ho he⟩

/-- **A connection that is lost leaves all others in balance**, whatever it was in itself. -/
theorem sound_loseTransport (ho : o.sendTimeout = none) (hsecure : r.Secure (k.onWire _))
    (hr : Faithful o r.service.events (some id) (scene r)) (status : Status) :
    Sound k o (r.loseTransport id status) := by
  refine ⟨hsecure.loseTransport id status, ?_⟩
  cases ht : r.transports.get? id with
  | none =>
    rw [Reactor.loseTransport_of_none ht]
    refine { hr with echoes := fun {id' t'} ht' _ => hr.echoes ht' fun heq => ?_ }
    have ht' : r.transports.get? id' = some t' := ht'
    rw [← Option.some.inj heq, ht] at ht'
    cases ht'
  | some t =>
    let r₁ : Session (.server port) (Wire σ) := { (r.unwatch t.descriptor).shutdownSocket t.descriptor with
      service := r.service.updateConnection t.handle (·.close status) }
    let r₂ := r₁.emit (.connectionLost t.handle.channel status t.handle)
    have hclosed : Faithful o r₁.service.events (some id) (scene r₁) := hr.close ht status
    have htold : Faithful o r₂.service.events (some id) (scene r₂) := hclosed.announce ho rfl
    let r₃ : Session (.server port) (Wire σ) :=
      { r₂ with transports := (r₂.transports.remove id).2 }.closeSocket t.descriptor
    have hlost : Faithful o r₃.service.events none (scene r₃) := htold.lose
    rw [Reactor.loseTransport_of_some ht]
    have hparted : scene (r.parted id t status) = scene r₃ := scene_updateChannel fun _ _ => by rfl
    exact hlost.of_scene ((scene_afterLoss _ _ _).trans hparted)

theorem Sound.loseTransport (ho : o.sendTimeout = none) (hr : Sound k o r) (id : TransportId)
    (status : Status) : Sound k o (r.loseTransport id status) :=
  sound_loseTransport ho hr.secure (hr.faithful.spare id) status

/-- **What a flush sends was at the front of the queue.** -/
theorem Sound.flushTransport (hr : Sound k o r) (now : Instant) (id : TransportId) :
    Sound k o (r.flushTransport now id).2 := by
  refine ⟨(Reactor.steady_flushTransport r now id).secure hr.secure, ?_⟩
  unfold Reactor.flushTransport
  split
  · exact hr.faithful
  · rename_i t ht
    split
    · exact hr.faithful
    · rename_i c hc
      obtain ⟨c', hc', hbalanced⟩ := hr.faithful.echoes ht nofun
      obtain rfl : c' = c := Option.some.inj (hc'.symm.trans hc)
      obtain ⟨sent, hflushed⟩ := Wire.flushes t.descriptor now hbalanced.lasting r.world
      generalize hf : flush t.descriptor now c'.outgoing r.world = f
      have hflushed : Wire.Flushes t.descriptor c'.outgoing r.world f sent := hf ▸ hflushed
      have hsent : ∀ x, r.service.connections[t.handle.serial]? = some x → Lasting x.outgoing →
          unsentOf x.outgoing = sent ++ unsentOf f.queue ∧ Lasting f.queue := by
        intro x hx _
        obtain rfl : x = c' := Option.some.inj (Eq.trans hx.symm hc')
        exact ⟨hflushed.unsent, hflushed.lasting⟩
      have hflush := hr.faithful.send (apart_of_secure hr.secure) ht hsent hflushed.said
      rw [show (scene r).heard = Wire.heard f.world from hflushed.heard.symm] at hflush
      exact hflush

/-- A descriptor that was handed out has no record yet. -/
theorem Sound.grant (hr : Sound k o r) {w : Running (.server port) (Wire σ)}
    (hd : Host.Grant r.world d w) : Sound k o { r with world := w } ∧
      Reactor.Handed (k.onWire _) { r with world := w } d ∧ Wire.heard w d = [] ∧ Wire.said w d = [] := by
  obtain ⟨hsecure, hhand⟩ := hr.secure.grant hd
  obtain ⟨w', -, rfl⟩ := Wire.exists_of_grant hd
  have hspare : ∀ {id t}, r.transports.get? id = some t → t.descriptor ≠ d := by
    rintro id t ht rfl
    exact hhand.spare (.transport id) ⟨_, congrArg (Option.map _) ht⟩
  have hother : ∀ {e : Descriptor} (xs : Bytes), e ≠ d → (if some d = some e then [] else xs) = xs :=
    fun xs he => if_neg fun heq => he (Option.some.inj heq).symm
  refine ⟨⟨hsecure, ?_⟩, hhand, if_pos rfl, if_pos rfl⟩
  exact hr.faithful.grant hspare (fun e he => hother _ he) fun e he => hother _ he

/-- **A connection begins with a blank record.** -/
theorem Sound.addTransport (hr : Sound k o r) (hd : r.Handed (k.onWire _) d) (hheard : Wire.heard r.world d = [])
    (hsaid : Wire.said r.world d = []) (i : Nat) {mask : ChannelMask} (hmask : mask.isUdp = false) :
    Sound k o (r.addTransport i mask d).2 := by
  refine ⟨hr.secure.addTransport hd i mask, ?_⟩
  have hget := Reactor.get?_addTransport hr.secure.arena.toSound (hr.secure.fits_addTransport i mask d)
  exact hr.faithful.add (h := (r.addTransport i mask d).1) rfl hmask hheard hsaid hget

theorem Sound.accepted (ho : o.sendTimeout = none) (hr : Sound k o r) (hd : r.Handed (k.onWire _) d)
    (hheard : Wire.heard r.world d = []) (hsaid : Wire.said r.world d = []) (i : Nat) {mask : ChannelMask}
    (hmask : mask.isUdp = false) : Sound k o (r.accepted i mask d) := by
  have hsteady := Reactor.steady_applyKeepAlive (k := k.onWire (.server port)) r d
  have hscene := scene_applyKeepAlive r d
  have hready : Sound k o (r.applyKeepAlive d) := hr.aside hsteady hscene
  have hheard' : Wire.heard (r.applyKeepAlive d).world d = [] :=
    (congrArg (fun v : Scene => v.heard d) hscene).trans hheard
  have hsaid' : Wire.said (r.applyKeepAlive d).world d = [] :=
    (congrArg (fun v : Scene => v.said d) hscene).trans hsaid
  exact (hready.addTransport (hsteady.handed hd) hheard' hsaid' i hmask).emit ho rfl

/-! ## Channels -/

theorem Sound.openFailed (ho : o.sendTimeout = none) (hr : Sound k o r) (i : Nat) (status : Status) :
    Sound k o (r.openFailed i status) := by
  refine ⟨hr.secure.openFailed i status, ?_⟩
  have hgiven : Faithful o (r.givenUp i status).service.events none (scene (r.givenUp i status)) :=
    hr.faithful.of_scene (scene_givenUp r i status)
  have htold := hgiven.announce ho (e := .connectResponse i status none) rfl
  refine Reactor.openFailed_cases (motive := fun r => Faithful o r.service.events none (scene r))
    (fun _ => hr.faithful) (fun _ _ _ => htold) fun _ _ _ => ?_
  exact htold.of_scene (scene_scheduleReconnect _ i)

/-- A channel's mask is a server's. -/
theorem Sound.serves (hr : Sound k o r) {c : Channel} (hc : r.channel? i = some c) : c.mask.Serves :=
  hr.faithful.masks _ (List.mem_map.2 ⟨c, List.mem_of_getElem? hc, rfl⟩)

/-- An open of a server begins. -/
theorem Sound.begun (hr : Sound k o r) (i : Nat) {mask : ChannelMask} (hmask : mask.Serves) :
    Sound k o (r.begun i mask) := by
  refine ⟨(Reactor.steady_begun r i mask).secure hr.secure, ?_⟩
  let r₁ := r.updateChannel i ({ · with mask := mask, pendingOpen := true, lastStatus := Status.ok })
  have hmasks : ∀ m ∈ (scene r₁).masks, m.Serves := by
    intro m hm
    obtain ⟨c', hc', rfl⟩ := List.mem_map.1 hm
    obtain ⟨j, hj⟩ := List.getElem?_of_mem hc'
    have hj : (r.channels.modify i _)[j]? = some c' := hj
    rw [List.getElem?_modify] at hj
    obtain ⟨c, hc, rfl⟩ := Option.map_eq_some_iff.1 hj
    split
    · exact hmask
    · exact hr.serves hc
  have hset : Faithful o r₁.service.events none (scene r₁) := hr.faithful.mask hmasks
  have hopening := hset.of_scene (scene_setState r₁ i .opening)
  unfold Reactor.begun
  simp only [hmask.1]
  exact hopening

/-! ## Reading -/

/-- **What is read is told**; a connection that cannot be read any more may be out of balance. -/
theorem Sound.unpacked (ho : o.sendTimeout = none) (hf : o.framing.PrefixStable)
    (hb : ∀ d, Sockets.Bounded σ d) (hr : Sound k o r) (ht : r.transports.get? id = some t)
    {spared : Option TransportId}
    (hspared : spared ≠ some id → (t.read r.options.framing r.world).failure = none) :
    Faithful o (r.unpacked id t).service.events spared (scene (r.unpacked id t)) := by
  have hgot : t.read r.options.framing r.world =
      Transport.readStream o.framing t.descriptor Transport.readsPerTurn t.assembler r.world := by
    rw [show r.options = o from hr.faithful.options]
    exact read_of_stream (hr.faithful.held ht).stream o.framing r.world
  obtain ⟨hsaid, hothers⟩ :=
    Wire.beside_readStream o.framing t.descriptor Transport.readsPerTurn t.assembler r.world
  have hreader : ∀ packets, Wire.Reader o.framing (Wire.heard r.world t.descriptor) packets t.assembler →
      (t.read r.options.framing r.world).failure = none →
      Wire.Reader o.framing (Wire.heard (t.read r.options.framing r.world).world t.descriptor)
        (packets ++ r.arrivals t) (t.read r.options.framing r.world).assembler := by
    intro packets h hok
    rw [Reactor.arrivals, hgot]
    rw [hgot] at hok
    exact Wire.Reader.readStream hf (hb t.descriptor) Transport.readsPerTurn h hok
  have hscene : scene (r.received id t) = { scene r with
      transports := r.transports.modify id
        ({ · with assembler := (t.read r.options.framing r.world).assembler })
      heard := Wire.heard (t.read r.options.framing r.world).world } := by
    have hsame : Wire.said (t.read r.options.framing r.world).world = Wire.said r.world := hgot ▸ hsaid
    simp only [scene, Reactor.received, hsame]
  have hreceived : Faithful o (r.service.events ++ ((r.arrivals t).map (.packet t.handle.channel t.handle) ++ []))
      spared (scene (r.received id t)) := by
    rw [hscene, List.append_nil]
    refine hr.faithful.receive (apart_of_secure hr.secure) ht (hgot ▸ hothers) fun hne packets h => ?_
    exact hreader packets h (hspared hne)
  have htold : Faithful o ((r.unpacked id t).service.events ++ []) spared (scene (r.unpacked id t)) :=
    Faithful.emitAll ho _ hreceived
  rwa [List.append_nil] at htold

theorem scene_eq_of_seek (h : Reactor.Seek i r r') : scene r' = scene r := by
  have hinquiring : scene (r.inquiring i) = scene r := scene_updateChannel fun _ _ => by rfl
  cases h with
  | retarget hc h => exact scene_updateChannel fun _ _ => by rfl
  | refresh hc => exact (scene_updateChannel fun _ _ => by rfl).trans (scene_now r)
  | inquire hc hdirty h =>
    obtain ⟨-, rfl⟩ := Prod.mk.inj h
    exact hinquiring
  | unanswered hc hdirty h =>
    obtain ⟨-, rfl⟩ := Prod.mk.inj h
    exact (scene_updateChannel fun _ _ => by rfl).trans hinquiring

/-! ## Chores -/

/-- Servers are all that is opened, from rest. -/
def Serving : Reactor.Terms := { Reactor.Terms.rested with opens := ChannelMask.Serves }

section
variable (ho : o.sendTimeout = none) (hf : o.framing.PrefixStable) (hb : ∀ d, Sockets.Bounded σ d)
include ho hf hb

/-- **A chore keeps the balance**, if nothing is opened but servers. -/
theorem Sound.chore (hr : Sound k o r) (h : Reactor.Chore Serving i r r') : Sound k o r' := by
  refine ⟨hr.secure.chore trivial h, ?_⟩
  have hsame : ∀ {r' : Session (.server port) (Wire σ)}, scene r' = scene r →
      Faithful o r'.service.events none (scene r') := hr.faithful.of_scene
  have hclients : ∀ {c : Channel}, r.channel? i = some c → c.mask.isClient ≠ true := fun hc hclient =>
    Bool.false_ne_true ((hr.serves hc).1.symm.trans hclient)
  have hrelays : ∀ {c : Channel}, ¬ r.Relays Serving i c := by
    intro c h
    have hroutes := h.routes
    simp only [Channel.routes, Bool.and_eq_true, Bool.not_eq_true'] at hroutes
    have htcp := ChannelMask.isTcp_of_isValid (h.valid trivial) (hr.serves h.channel).2
    exact Bool.false_ne_true (hroutes.2.symm.trans htcp)
  cases h with
  | ask h =>
    obtain ⟨hheard, hsaid⟩ := Wire.record_of_ask h
    refine hsame ?_
    simp only [scene, hheard, hsaid]
  | drop => exact hsame (scene_dropTimer r i)
  | settle => exact hsame (scene_updateChannel fun _ _ => by rfl)
  | release => exact hsame (scene_releaseSocket r i)
  | port port => exact hsame (scene_updateChannel fun _ _ => by rfl)
  | seek hseeks h => exact hsame (scene_eq_of_seek h)
  | answer hhears ha hc haccepts => exact hsame (scene_updateChannel fun _ _ => by rfl)
  | begin hopens hvalid hc hbare => exact (hr.begun i hopens).faithful
  | fail h hopening => exact (hr.openFailed ho i _).faithful
  | connect hc hclient h => exact absurd hclient (hclients hc)
  | connecting hc hclient h hbare => exact absurd hclient (hclients hc)
  | finish hc hclient hsocket h => exact absurd hclient (hclients hc)
  | bind hc hserver h hbare =>
    refine (hr.grant (.bindServer h)).1.faithful.of_scene ?_
    exact (scene_setState _ i .opened).trans (scene_updateChannel fun _ _ => by rfl)
  | accept hc htcp h =>
    obtain ⟨hgranted, hhand, hheard, hsaid⟩ := hr.grant (.accept h)
    exact (hgranted.accepted ho hhand hheard hsaid i (hr.serves hc).2).faithful
  | packet h hpeer payload => exact absurd h hrelays
  | greet h hunknown hbind payload => exact absurd h hrelays
  | read ht hi hok => exact hr.unpacked ho hf hb ht fun _ => hok
  | broken ht hi hfailed =>
    exact (sound_loseTransport ho (hr.secure.unpacked _ _) (hr.unpacked ho hf hb ht (absurd rfl)) _).faithful
  | flush now id => exact (hr.flushTransport now id).faithful
  | lose ht hi status => exact (hr.loseTransport ho _ status).faithful
  | empty halone =>
    exact hsame ((scene_setState _ i .closed).trans (scene_updateChannel fun _ _ => by rfl))
  | closing => exact (hr.emit ho rfl).faithful
  | renew ht hc => exact hr.faithful.renew _ _
  | script timer cancelled => exact hsame rfl

theorem Sound.chores (hr : Sound k o r) (h : Reactor.Chores Serving r r') : Sound k o r' :=
  h.keeps (P := Sound k o) (fun _ hchore hr => hr.chore ho hf hb hchore) hr

/-! ## From rest to rest -/

variable {due : List (Expired Task)}

/-- **A command keeps the balance**, if it opens nothing but servers. -/
theorem Sound.perform (hr : Sound k o r) (hrest : r.AtRest due) {c : NetReactor.Command}
    (hserves : c.Serves) : Sound k o (r.perform c) := by
  refine hr.chores ho hf hb (Reactor.chores_perform (hrest.admits hr.secure.fits (fun _ => trivial) trivial
    (.inr trivial) (fun heq => ?_) fun {i id c'} _ hc' => ?_))
  · subst heq
    exact hserves
  · -- what is reopened is a server still after its transport was closed
    have hchores : Reactor.Chores Serving r (r.closeTransport id) :=
      Reactor.chores_closeTransport fun _ _ => trivial
    exact (hr.chores ho hf hb hchores).serves hc'

/-- **What a turn does keeps the balance.** -/
theorem Sound.act (hr : Sound k o r) (hrest : r.AtRest due) {a : Reactor.Act} (ha : a.isTimer = false) :
    Sound k o (r.act a) := by
  refine Reactor.act_cases (T := Serving) ha (fun _ => trivial) (fun _ => hrest.ripe hr.secure.fits)
    (hr.aside (Reactor.steady_shared r _ (Kernel.keeps_use (.now _))) rfl)
    (fun d => hr.aside (Reactor.steady_world r (Kernel.keeps_use (.wait _ _ _))) rfl) (fun ready => ?_)
    (hr.chores ho hf hb)
  have hsteady : r.Steady (k.onWire _) (r.resetInterrupter ready) := .ite ⟨rfl, rfl, .refl _⟩ (.refl r)
  refine hr.aside hsteady ?_
  show scene (r.resetInterrupter ready) = scene r
  unfold Reactor.resetInterrupter
  split
  · rfl
  · rfl

/-- **A timer that fires keeps the balance**: the server's own do nothing to connections. -/
theorem Sound.fire (hr : Sound k o r) (hrest : r.AtRest due) {e : Expired Task} (he : e ∈ due) :
    Sound k o (r.fire e) := by
  have hyields : Serving.Yields r e :=
    hrest.yields hr.secure.fits (fun _ => trivial) trivial he fun _ hc => hr.serves hc
  exact Reactor.keeps_fire (P := Sound k o) hyields (fun i hr => hr.updateChannel i fun _ => ⟨rfl, rfl⟩)
    (fun hchores hr => hr.chores ho hf hb hchores) hr

/-- At the end all connections are lost, one after the other. -/
theorem Sound.closed (hr : Sound k o r) : Sound k o r.closed :=
  hr.chores ho hf hb (Reactor.chores_closed (fun _ => trivial) (.inl hr.secure.fits))

end

end

end Echo

end NetReactor
