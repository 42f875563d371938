import NetReactor.Proofs.Reactor.Phases

/-!
# Deed by deed

A handler's work as a row of deeds, each with what it does to the clock, the command queue, the timers and
the log (`Deeds`). **A channel's timer is armed into an empty slot, and armed to try again only after a
failure that was told in the same row** (`Cause`). What holds along every row holds of every handler;
what a handler does to sockets and transports has no part here.
-/

namespace NetReactor

namespace Host

variable {σ : Type} [Host σ]

/-- One call of the host, or one callback, which may do to the world what it likes. -/
inductive Call : σ → σ → Prop
  | now (w : σ) : Call w (Host.now w).2
  | connect (stream : Bool) (port : UInt16) (a : SocketAddress) (w : σ) :
      Call w (Host.connect stream port a w).2
  | connectError (d : Descriptor) (w : σ) : Call w (Host.connectError d w).2
  | bindServer (stream : Bool) (a : SocketAddress) (w : σ) : Call w (Host.bindServer stream a w).2
  | accept (d : Descriptor) (w : σ) : Call w (Host.accept d w).2
  | receiveFrom (d : Descriptor) (limit : Nat) (w : σ) : Call w (Host.receiveFrom d limit w).2
  | bindPeer (server peer : SocketAddress) (w : σ) : Call w (Host.bindPeer server peer w).2
  | keepAlive (d : Descriptor) (k : KeepAlive) (w : σ) : Call w (Host.keepAlive d k w)
  | close (d : Descriptor) (w : σ) : Call w (Host.close d w)
  | lookUp (l : Lookup) (w : σ) : Call w (Host.lookUp l w).2
  | receive (d : Descriptor) (limit : Nat) (w : σ) : Call w (Sockets.receive d limit w).2
  | send (d : Descriptor) (data : Bytes) (w : σ) : Call w (Sockets.send d data w).2
  | shutdown (d : Descriptor) (w : σ) : Call w (Sockets.shutdown d w)
  | onEvent (callback : Nat) (e : Event) (s : Service) (w : σ) :
      Call w (Service.runScript (Application.onEvent callback e w) s).2
  | onTimer (timer : Nat) (cancelled : Bool) (s : Service) (w : σ) :
      Call w (Service.runScript (Application.onTimer timer cancelled w) s).2

/-- Any number of calls. -/
def Calls : σ → σ → Prop := Relation.ReflTransGen Call

theorem Calls.refl (w : σ) : Calls w w := Relation.ReflTransGen.refl

theorem Calls.trans {w w' w'' : σ} (h : Calls w w') (h' : Calls w' w'') : Calls w w'' :=
  Relation.ReflTransGen.trans h h'

theorem Call.calls {w w' : σ} (h : Call w w') : Calls w w' := Relation.ReflTransGen.single h

/-- A call whose answer is known. -/
theorem Call.calls_of_eq {α : Type} {w : σ} {x y : α × σ} (h : Call w x.2) (heq : x = y) :
    Calls w y.2 := (heq ▸ h).calls

theorem Ask.calls {w w' : σ} (h : Ask w w') : Calls w w' := by
  cases h with
  | now => exact (Call.now w).calls
  | refused h => exact (Call.connect _ _ _ w).calls_of_eq h
  | connectError d => exact (Call.connectError d w).calls
  | unbound h => exact (Call.bindServer _ _ w).calls_of_eq h
  | accept h hnone => exact (Call.accept _ w).calls_of_eq h
  | receiveFrom d limit => exact (Call.receiveFrom d limit w).calls
  | homeless h => exact (Call.bindPeer _ _ w).calls_of_eq h
  | shutdown d => exact (Call.shutdown d w).calls

section
variable {P : σ → Prop} {d : Descriptor}

/-- What every send keeps is kept by a flush. -/
theorem flush_keeps (hsend : ∀ data w, P w → P (Sockets.send d data w).2) (now : Instant)
    (queue : List Outgoing) {w : σ} (h : P w) : P (flush d now queue w).world := by
  induction queue generalizing w with
  | nil => exact h
  | cons m rest ih =>
    unfold flush
    split
    · exact ih h
    · have hsent := hsend m.unsent w h
      split
      · rename_i n w' heq
        rw [heq] at hsent
        split
        · exact hsent
        · exact ih hsent
      · rename_i e w' heq
        rwa [heq] at hsent

variable (hreceive : ∀ limit w, P w → P (Sockets.receive d limit w).2)
include hreceive

theorem readStream_keeps (f : Framing) (turns : Nat) (a : Assembler) {w : σ} (h : P w) :
    P (Transport.readStream f d turns a w).world := by
  induction turns generalizing a w with
  | zero => exact h
  | succ turns ih =>
    have hreceived := hreceive a.spare w h
    unfold Transport.readStream
    split
    · rename_i heq
      rwa [heq] at hreceived
    · rename_i heq
      rw [heq] at hreceived
      split
      · exact hreceived
      · exact ih _ hreceived
    · rename_i heq
      rwa [heq] at hreceived

theorem readMessages_keeps (turns : Nat) {w : σ} (h : P w) :
    P (Transport.readMessages d turns w).2.2 := by
  induction turns generalizing w with
  | zero => exact h
  | succ turns ih =>
    have hreceived := hreceive receiveRoom w h
    unfold Transport.readMessages
    split
    · rename_i heq
      rw [heq] at hreceived
      exact ih hreceived
    · rename_i heq
      rwa [heq] at hreceived

end

/-- What every receive keeps is kept by reading. -/
theorem read_keeps {P : σ → Prop} {t : Transport}
    (hreceive : ∀ limit w, P w → P (Sockets.receive t.descriptor limit w).2) (f : Framing) {w : σ}
    (h : P w) : P (t.read f w).world := by
  unfold Transport.read
  split
  · exact readMessages_keeps hreceive _ h
  · exact readStream_keeps hreceive _ _ _ h

theorem calls_flush (d : Descriptor) (now : Instant) (queue : List Outgoing) (w : σ) :
    Calls w (flush d now queue w).world :=
  flush_keeps (fun data w' h => h.trans (Call.send d data w').calls) now queue (.refl w)

theorem calls_read (t : Transport) (f : Framing) (w : σ) : Calls w (t.read f w).world :=
  read_keeps (fun limit w' h => h.trans (Call.receive _ limit w').calls) f (.refl w)

end Host

/-- An event that tells of an open of channel `i` that failed, or of a connection of it that was lost without
being closed from this side. -/
inductive Event.Fails (σ : Type) [Host σ] (i : Nat) : Event → Prop
  | refused {status : Status} (h : Host.Refusal σ status) : Fails σ i (.connectResponse i status none)
  | lost {status : Status} (h : status ≠ Status.closedHere) (k : Handle) :
      Fails σ i (.connectionLost i status k)

/-- What the deeds are about of the service. -/
def Service.agenda (s : Service) :=
  (s.commands, s.options, s.version, s.interrupter, s.timers, s.nextTimer, s.timerCalls, s.emitted)

namespace Reactor

variable {σ : Type} [Host σ]

/-- The handle in a channel's timer slot. -/
def slot (r : Reactor σ) (i : Nat) : Option Timer.Handle := (r.channel? i).bind (·.timer)

/-- What was told since `r₀`. -/
def news (r r₀ : Reactor σ) : List Emission := r.service.emitted.toList.drop r₀.service.emitted.size

/-- Why a timer is armed for channel `i`, and for how long: an open begins, or something failed. -/
inductive Cause (r₀ r : Reactor σ) (i : Nat) : Task → Duration → Prop
  | opens : Cause r₀ r i (.connectTimeout i) r.options.connectTimeout
  | fails {delay : Duration} {m : Emission} (hm : m ∈ r.news r₀) (hfails : m.event.Fails σ i)
      (hdelay : r.options.reconnectTimeout = some delay) : Cause r₀ r i (.reconnect i) delay

/-- A timer is added, and a channel's slot names it. -/
def armed (r : Reactor σ) (i : Nat) (delay : Duration) (task : Task) : Reactor σ :=
  { r with
    world := (Host.now r.world).2
    service := (r.service.addTimer (Host.now r.world).1 delay false task).2 }.updateChannel i
      ({ · with timer := some r.service.nextTimer })

/-- The loop comes from `r₀` to another state, deed by deed. -/
inductive Deeds (r₀ : Reactor σ) : Reactor σ → Prop
  | refl : Deeds r₀ r₀
  | aside {r r' : Reactor σ} (h : Deeds r₀ r) (hworld : Host.Calls r.world r'.world)
      (hslots : r'.channels.map (·.timer) = r.channels.map (·.timer))
      (hrest : (r'.options, r'.version, r'.service.agenda) = (r.options, r.version, r.service.agenda)) :
      Deeds r₀ r'
  | ask {r : Reactor σ} (h : Deeds r₀ r) (now : Instant) (q : Request) :
      Deeds r₀ { r with service := (r.service.perform now q).2 }
  | record {r : Reactor σ} (h : Deeds r₀ r) (e : Event) : Deeds r₀ (r.record e)
  | drop {r : Reactor σ} {i : Nat} {g : Timer.Handle} (h : Deeds r₀ r) (hg : r.slot i = some g) :
      Deeds r₀ ({ r with service := (r.service.removeTimer g).2 }.updateChannel i
        ({ · with timer := none }))
  | arm {r : Reactor σ} {i : Nat} {c : Channel} {task : Task} {delay : Duration} (h : Deeds r₀ r)
      (hc : r.channel? i = some c) (hempty : c.timer = none) (hcause : Cause r₀ r i task delay) :
      Deeds r₀ (r.armed i delay task)

variable {r₀ r r' : Reactor σ} {i : Nat}

namespace Deeds

/-- What is done under a condition only. -/
theorem ite {r₁ r₂ : Reactor σ} {p : Prop} [Decidable p] (h₁ : Deeds r₀ r₁) (h₂ : Deeds r₀ r₂) :
    Deeds r₀ (if p then r₁ else r₂) := by
  split
  · exact h₁
  · exact h₂

/-! ## What has no part -/

/-- Sockets, transports and queues have no part in a deed. -/
theorem keep (h : Deeds r₀ r) (hsame : (r'.world, r'.channels, r'.options, r'.version,
    r'.service.agenda) = (r.world, r.channels, r.options, r.version, r.service.agenda)) :
    Deeds r₀ r' := by
  simp only [Prod.mk.injEq] at hsame
  obtain ⟨hworld, hchannels, hoptions, hversion, hagenda⟩ := hsame
  exact h.aside (hworld ▸ .refl _) (by rw [hchannels]) (by rw [hoptions, hversion, hagenda])

theorem world (h : Deeds r₀ r) {w : σ} (hcalls : Host.Calls r.world w) :
    Deeds r₀ { r with world := w } :=
  h.aside hcalls rfl rfl

theorem now (h : Deeds r₀ r) : Deeds r₀ r.now.2 := h.world (Host.Call.now _).calls

theorem updateChannel (h : Deeds r₀ r) (i : Nat) {f : Channel → Channel}
    (hf : ∀ c, r.channel? i = some c → (f c).timer = c.timer) : Deeds r₀ (r.updateChannel i f) :=
  h.aside (.refl _) (slots_keep hf) rfl

theorem setState (h : Deeds r₀ r) (i : Nat) (state : ChannelState) : Deeds r₀ (r.setState i state) :=
  h.aside (.refl _) (slots_keep fun _ _ => rfl) rfl

theorem closeSocket (h : Deeds r₀ r) (d : Descriptor) : Deeds r₀ (r.closeSocket d) :=
  h.world (Host.Call.close d _).calls

theorem shutdownSocket (h : Deeds r₀ r) (d : Descriptor) : Deeds r₀ (r.shutdownSocket d) :=
  h.world (Host.Call.shutdown d _).calls

theorem releaseSocket (h : Deeds r₀ r) (i : Nat) : Deeds r₀ (r.releaseSocket i) := by
  unfold Reactor.releaseSocket
  split
  · refine .closeSocket ?_ _
    exact .keep (h.updateChannel i fun _ _ => by rfl) rfl
  · exact h

theorem applyKeepAlive (h : Deeds r₀ r) (d : Descriptor) : Deeds r₀ (r.applyKeepAlive d) := by
  unfold Reactor.applyKeepAlive
  split
  · exact h.world (Host.Call.keepAlive d _ _).calls
  · exact h

theorem addTransport (h : Deeds r₀ r) (i : Nat) (mask : ChannelMask) (d : Descriptor) :
    Deeds r₀ (r.addTransport i mask d).2 :=
  h.keep rfl

theorem flushTransport (h : Deeds r₀ r) (now : Instant) (id : TransportId) :
    Deeds r₀ (r.flushTransport now id).2 := by
  unfold Reactor.flushTransport
  split
  · exact h
  · split
    · exact h
    · exact h.aside (Host.calls_flush _ _ _ _) rfl rfl

/-! ## Events -/

/-- The requests of a callback. -/
theorem runScript (h : Deeds r₀ r) (script : Script σ) :
    Deeds r₀ { r with service := (Service.runScript script r.service).1 } := by
  induction script generalizing r with
  | done w => exact h
  | call w q next ih => exact ih _ _ (h.ask _ q)

theorem deliver (h : Deeds r₀ r) (callback : Nat) (e : Event) :
    Deeds r₀ { r with
      service := (Service.deliver callback e r.service r.world).1
      world := (Service.deliver callback e r.service r.world).2 } := by
  let s := { r.service with delivered := r.service.delivered.push (callback, e) }
  have hrecorded : Deeds r₀ { r with service := s } := h.keep rfl
  have hasked := hrecorded.runScript (Application.onEvent callback e r.world)
  exact hasked.world (Host.Call.onEvent callback e s r.world).calls

theorem emit (h : Deeds r₀ r) (e : Event) : Deeds r₀ (r.emit e) := by
  have hrecord := h.record e
  simp only [Reactor.emit]
  split
  · exact hrecord.keep rfl
  · split
    · exact hrecord.deliver _ e
    · exact hrecord

theorem emitAll (h : Deeds r₀ r) (events : List Event) : Deeds r₀ (r.emitAll events) :=
  List.foldlRecOn events Reactor.emit h fun _ h e _ => h.emit e

/-! ## Timers -/

theorem dropTimer (h : Deeds r₀ r) (i : Nat) : Deeds r₀ (r.dropTimer i) := by
  unfold Reactor.dropTimer
  split
  · rename_i g hg
    exact h.drop hg
  · exact h

/-- Nothing that was told is taken back. -/
theorem exists_emitted (h : Deeds r₀ r) :
    ∃ more, r.service.emitted.toList = r₀.service.emitted.toList ++ more := by
  induction h with
  | refl => exact ⟨[], by simp⟩
  | aside h hworld hslots hrest ih =>
    simp only [Service.agenda, Prod.mk.injEq] at hrest
    rwa [hrest.2.2.2.2.2.2.2.2.2]
  | @ask r h now q ih => rwa [emitted_of_plays (Service.plays_perform r.service now q)]
  | @record r h e ih =>
    obtain ⟨more, hmore⟩ := ih
    exact ⟨more ++ [r.emission e], by rw [emitted_record, hmore, List.append_assoc]⟩
  | drop h hg ih => exact ih
  | arm h hc hempty hcause ih => exact ih

/-- An event that is told is news. -/
theorem exists_news (h : Deeds r₀ r) (e : Event) : ∃ m ∈ (r.emit e).news r₀, m.event = e := by
  obtain ⟨more, hmore⟩ := h.exists_emitted
  obtain ⟨s, w, hplays, heq⟩ := exists_emit r e
  have hemitted : (r.emit e).service.emitted.toList =
      r₀.service.emitted.toList ++ (more ++ [r.emission e]) := by
    rw [heq, ← List.append_assoc, ← hmore, ← emitted_record]
    exact congrArg Array.toList (emitted_of_plays hplays)
  refine ⟨r.emission e, ?_, rfl⟩
  rw [news, hemitted, ← Array.length_toList, List.drop_left]
  exact List.mem_append_right _ List.mem_cons_self

end Deeds

/-- The reason stands as long as nothing is told and the options stay. -/
theorem Cause.of_eq {task : Task} {delay : Duration} (h : Cause r₀ r i task delay)
    (hsame : (r'.options, r'.service.emitted) = (r.options, r.service.emitted)) :
    Cause r₀ r' i task delay := by
  simp only [Prod.mk.injEq] at hsame
  cases h with
  | opens => exact hsame.1 ▸ .opens
  | fails hm hfails hdelay =>
    refine .fails ?_ hfails (hsame.1 ▸ hdelay)
    rwa [news, hsame.2]

namespace Deeds

variable {c : Channel}

theorem armTimer (h : Deeds r₀ r) (hc : r.channel? i = some c) {task : Task} {delay : Duration}
    (hcause : Cause r₀ r i task delay) : Deeds r₀ (r.armTimer i delay task) := by
  have hc' : (r.dropTimer i).channel? i = some { c with timer := none } := by simp [hc]
  refine (h.dropTimer i).arm hc' rfl (hcause.of_eq ?_)
  unfold Reactor.dropTimer
  split <;> rfl

/-- A plan to try again is made after a failure only. -/
theorem scheduleReconnect (h : Deeds r₀ r) (hc : r.channel? i = some c)
    (hnews : ∃ m ∈ r.news r₀, m.event.Fails σ i) : Deeds r₀ (r.scheduleReconnect i) := by
  obtain ⟨m, hm, hfails⟩ := hnews
  unfold Reactor.scheduleReconnect
  split
  · rename_i delay hdelay
    exact h.armTimer hc (.fails hm hfails hdelay)
  · exact h

/-! ## Losing and closing -/

theorem afterLoss (h : Deeds r₀ r) (i : Nat) (status : Status)
    (hnews : status ≠ Status.closedHere → ∃ m ∈ r.news r₀, m.event.Fails σ i) :
    Deeds r₀ (r.afterLoss i status) := by
  have hlapsed : Deeds r₀ (r.lapsed i status) := (h.updateChannel i fun _ _ => by rfl).setState i _
  refine afterLoss_cases h (fun _ _ _ => hlapsed) fun c hc _ hstatus => ?_
  have hc₁ : (r.lapsed i status).channel? i = some { c with lastStatus := status, state := .closed } := by
    simp [lapsed, hc]
  exact hlapsed.scheduleReconnect hc₁ (hnews hstatus)

theorem loseTransport (h : Deeds r₀ r) (id : TransportId) (status : Status) :
    Deeds r₀ (r.loseTransport id status) := by
  cases ht : r.transports.get? id with
  | none => rwa [loseTransport_of_none ht]
  | some t =>
    rw [loseTransport_of_some ht]
    have hunwatched : Deeds r₀ (r.unwatch t.descriptor) := h.keep rfl
    let r₁ := (r.unwatch t.descriptor).shutdownSocket t.descriptor
    let r₂ := { r₁ with service := r.service.updateConnection t.handle (·.close status) }
    have hclosed : Deeds r₀ r₂ := (hunwatched.shutdownSocket _).keep rfl
    obtain ⟨m, hm, hevent⟩ := hclosed.exists_news
      (.connectionLost t.handle.channel status t.handle)
    let r₃ := r₂.emit (.connectionLost t.handle.channel status t.handle)
    have htold : Deeds r₀ r₃ := hclosed.emit _
    have hremoved : Deeds r₀ { r₃ with transports := (r₃.transports.remove id).2 } := htold.keep rfl
    have hparted : Deeds r₀ (r.parted id t status) := by
      have hshut := hremoved.closeSocket t.descriptor
      exact hshut.updateChannel _ (f := fun c => { c with peers := c.peers.filter (·.2 ≠ id) })
        fun _ _ => rfl
    exact hparted.afterLoss _ status fun hstatus => ⟨m, hm, hevent ▸ .lost hstatus _⟩

theorem unpacked (h : Deeds r₀ r) (id : TransportId) (t : Transport) : Deeds r₀ (r.unpacked id t) := by
  have hreceived : Deeds r₀ (r.received id t) := h.aside (Host.calls_read t _ _) rfl rfl
  exact hreceived.emitAll _

theorem openFailed (h : Deeds r₀ r) (i : Nat) {status : Status} (hstatus : Host.Refusal σ status) :
    Deeds r₀ (r.openFailed i status) := by
  have hclosed : Deeds r₀ (r.givenUp i status) :=
    (((h.dropTimer i).releaseSocket i).updateChannel i fun _ _ => by rfl).setState i _
  have htold := hclosed.emit (.connectResponse i status none)
  refine openFailed_cases (fun _ => h) (fun _ _ _ => htold) fun c hc _ => ?_
  obtain ⟨m, hm, hevent⟩ := hclosed.exists_news (.connectResponse i status none)
  obtain ⟨c', hc'⟩ : ∃ c', ((r.givenUp i status).emit (.connectResponse i status none)).channel? i =
      some c' := ⟨_, by simp [givenUp, hc]; rfl⟩
  exact htold.scheduleReconnect hc' ⟨m, hm, hevent ▸ .refused hstatus⟩

theorem connected (h : Deeds r₀ r) (i : Nat) (mask : ChannelMask) (d : Descriptor) :
    Deeds r₀ (r.connected i mask d) := by
  unfold Reactor.connected
  refine .emit (.setState (.updateChannel (.addTransport ?_ i mask d) _ fun _ _ => by rfl) _ _) _
  exact .ite ((h.dropTimer i).applyKeepAlive d) (h.dropTimer i)

theorem begun (h : Deeds r₀ r) (hc : r.channel? i = some c) (mask : ChannelMask) :
    Deeds r₀ (r.begun i mask) := by
  let r₁ := (r.updateChannel i
    ({ · with mask := mask, pendingOpen := true, lastStatus := Status.ok })).setState i .opening
  have hopening : Deeds r₀ r₁ := (h.updateChannel i fun _ _ => by rfl).setState i _
  have hc₁ : r₁.channel? i = some { c with
      mask := mask, pendingOpen := true, lastStatus := Status.ok, state := .opening } := by
    simp [r₁, hc]
  exact .ite (hopening.armTimer hc₁ .opens) hopening

theorem seek (h : Deeds r₀ r) (hseek : Seek i r r') : Deeds r₀ r' := by
  have hinquiring : Deeds r₀ (r.inquiring i) := h.updateChannel i fun _ _ => rfl
  have hasked : ∀ {l : Lookup} {started w}, Host.lookUp l r.world = (started, w) →
      Deeds r₀ { r.inquiring i with world := w } := fun heq =>
    hinquiring.world ((Host.Call.lookUp _ r.world).calls_of_eq heq)
  cases hseek with
  | retarget hc heq => exact h.updateChannel i fun _ _ => by rfl
  | refresh hc => exact h.now.updateChannel i fun _ _ => by rfl
  | inquire hc hdirty heq => exact (hasked heq).keep rfl
  | unanswered hc hdirty heq => exact (hasked heq).now.updateChannel i fun _ _ => by rfl

/-! ## Chores -/

/-- **A chore is done deed by deed.** -/
theorem chore {T : Terms} (h : Deeds r₀ r) (hchore : Chore T i r r') : Deeds r₀ r' := by
  cases hchore with
  | ask hask => exact h.world hask.calls
  | drop => exact h.dropTimer i
  | settle => exact h.updateChannel i fun _ _ => by rfl
  | release => exact h.releaseSocket i
  | port port => exact h.updateChannel i fun _ _ => by rfl
  | seek hseeks hseek => exact h.seek hseek
  | answer hhears ha hc haccepts => exact h.updateChannel _ fun _ _ => by rfl
  | begin hopens hvalid hc hbare => exact h.begun hc _
  | fail hthwarted hopening => exact h.openFailed i hthwarted.refusal
  | connect hc hclient heq =>
    exact (h.world ((Host.Call.connect _ _ _ r.world).calls_of_eq heq)).connected i _ _
  | @connecting c target d w hc hclient heq hbare =>
    have hasked := h.world ((Host.Call.connect _ _ _ r.world).calls_of_eq heq)
    have hwatched : Deeds r₀ ({ r with world := w }.watchFor d (.channel i) .write) := hasked.keep rfl
    exact hwatched.updateChannel i fun _ _ => by rfl
  | @finish c d w hc hclient hsocket heq =>
    have hasked := h.world ((Host.Call.connectError d r.world).calls_of_eq heq)
    have hunbound : Deeds r₀ ({ r with world := w }.unbound i d) :=
      (hasked.updateChannel i fun _ _ => by rfl).keep rfl
    exact hunbound.connected i _ d
  | @bind c address d w hc hserver heq hbare =>
    have hasked := h.world ((Host.Call.bindServer _ _ r.world).calls_of_eq heq)
    have hwatched : Deeds r₀ ({ r with world := w }.watchFor d (.channel i) .read) := hasked.keep rfl
    exact (hwatched.updateChannel i fun _ _ => by rfl).setState i _
  | accept hc htcp heq =>
    have hasked := h.world ((Host.Call.accept _ r.world).calls_of_eq heq)
    exact ((hasked.applyKeepAlive _).addTransport i _ _).emit _
  | packet hrelays hpeer payload => exact h.emit _
  | @greet c server peer d w hrelays hunknown heq payload =>
    have hasked := h.world ((Host.Call.bindPeer server peer r.world).calls_of_eq heq)
    have hintroduced : Deeds r₀ ({ r with world := w }.introduced i c.mask d peer) :=
      ((hasked.addTransport i c.mask d).updateChannel i fun _ _ => by rfl).emit _
    exact hintroduced.emit _
  | read ht hi hok => exact h.unpacked _ _
  | broken ht hi hfailed => exact (h.unpacked _ _).loseTransport _ _
  | flush now id => exact h.flushTransport now id
  | lose ht hi status => exact h.loseTransport _ status
  | empty halone => exact (h.updateChannel i fun _ _ => by rfl).setState i _
  | closing => exact h.emit _
  | renew ht hc => exact h.keep rfl
  | script timer cancelled =>
    have hasked := h.runScript (Application.onTimer timer cancelled r.world)
    exact hasked.world (Host.Call.onTimer timer cancelled r.service r.world).calls

theorem chores {T : Terms} (h : Deeds r₀ r) (hchores : Chores T r r') : Deeds r₀ r' :=
  hchores.keeps (P := Deeds r₀) (fun _ hchore h => h.chore hchore) h

end Deeds

/-- What a handler does, in chores of any kind, is done deed by deed. -/
theorem Chores.deeds (h : Chores .any r r') : Deeds r r' := Deeds.refl.chores h

theorem deeds_perform (r : Reactor σ) (c : Command) : Deeds r (r.perform c) :=
  (chores_perform (admits_any c)).deeds

theorem deeds_closed (r : Reactor σ) : Deeds r r.closed :=
  (chores_closed (fun _ => trivial) named_any).deeds

/-- **A fired timer leads to deeds**, for a channel's own timer after its slot was emptied. -/
theorem deeds_fire (r : Reactor σ) (e : Timer.Expired Task) :
    Deeds r (r.fire e) ∨ ∃ i, e.payload.channel? = some i ∧ r.slot i = some e.handle ∧
      Deeds (r.updateChannel i ({ · with timer := none })) (r.fire e) := by
  rcases chores_fire (yields_any (r := r) e) with hchores | ⟨i, c, hi, hc, htimer, hchores⟩
  · exact .inl hchores.deeds
  · exact .inr ⟨i, hi, Option.bind_eq_some_iff.2 ⟨c, hc, htimer⟩, hchores.deeds⟩

end Reactor

end NetReactor
