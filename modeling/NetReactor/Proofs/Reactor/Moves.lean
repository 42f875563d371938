import Mathlib.Logic.Relation
import NetReactor.Proofs.Reactor.Handlers
import NetReactor.Proofs.Slots

/-!
# What the handlers are made of

Whatever a handler does for a channel is a path of moves: a field of the channel changes, its timer is
dropped or armed, a transport is added and announced, told of, or lost. **The moves of one channel are
all there is** (`path_openChannel` and its like), so that what every move keeps, every handler keeps;
and no move touches another channel. Callbacks come in between: of all that concerns the channels they
can only add to the timers, and cancel or remove some (`Play`).
-/

namespace NetReactor

namespace Service

/-- What only the loop changes in the service: states, events, connections, and whether it runs. -/
def stage (s : Service) : List ChannelState × Array Emission × List (Handle × Bool) × Bool :=
  (s.states, s.emitted, s.connections.toList.map fun c => (c.handle, c.isOpen), s.running)

/-- That, and the timers. -/
def books (s : Service) :=
  (s.stage, s.timers, s.nextTimer, s.timerCalls)

/-- What the application can do to it, and the wait, which drops stale keys. -/
inductive Play : Service → Service → Prop
  | same {s s' : Service} (h : s'.books = s.books) : Play s s'
  | schedule {s : Service} (now : Instant) (delay : Duration) (again : Bool) (timer : Nat) :
      Play s { s with
        timers := s.timers.insert s.nextTimer (.after now delay again (.user timer))
        nextTimer := s.nextTimer + 1
        timerCalls := .scheduled s.nextTimer :: s.timerCalls }
  | cancel {s : Service} (now : Instant) (h : Timer.Handle) :
      Play s { s with
        timers := (s.timers.cancel now h).2
        timerCalls := .cancelled h :: s.timerCalls }
  | remove {s : Service} (h : Timer.Handle) :
      Play s { s with
        timers := (s.timers.remove h).2
        timerCalls := .removed h :: s.timerCalls }
  | wait {s : Service} : Play s { s with timers := s.timers.nextDeadline.2 }

/-- Any number of plays. -/
def Plays : Service → Service → Prop := Relation.ReflTransGen Play

theorem Plays.refl (s : Service) : s.Plays s := Relation.ReflTransGen.refl

theorem Plays.single {s s' : Service} (h : s.Play s') : s.Plays s' := Relation.ReflTransGen.single h

theorem Plays.trans {s s' s'' : Service} (h : s.Plays s') (h' : s'.Plays s'') : s.Plays s'' :=
  Relation.ReflTransGen.trans h h'

theorem Plays.of_books {s s' : Service} (h : s'.books = s.books) : s.Plays s' := .single (.same h)

theorem Plays.stage {s s' : Service} (h : s.Plays s') : s'.stage = s.stage := by
  induction h with
  | refl => rfl
  | tail _ hplay ih =>
    refine .trans ?_ ih
    cases hplay with
    | same h => exact congrArg (·.1) h
    | _ => rfl

/-- What is done under a condition only. -/
theorem Plays.ite {s s' : Service} {p : Prop} [Decidable p] (h : s.Plays s') :
    s.Plays (if p then s' else s) := by
  split
  · exact h
  · exact .refl s

theorem books_updateConnection (s : Service) (h : Handle) {f : Connection → Connection}
    (hf : ∀ c, (f c).handle = c.handle ∧ (f c).isOpen = c.isOpen) :
    (s.updateConnection h f).books = s.books := by
  have hconnections : (s.connections.modify h.serial f).toList.map (fun c => (c.handle, c.isOpen)) =
      s.connections.toList.map fun c => (c.handle, c.isOpen) := by
    refine List.ext_getElem? fun k => ?_
    rw [List.getElem?_map, List.getElem?_map, Array.toList_modify, List.getElem?_modify]
    cases s.connections.toList[k]? with
    | none => rfl
    | some c => split <;> simp [hf]
  simp only [books, stage, updateConnection, hconnections]

theorem timers_cancel_of_false {q : Timer.Queue Task} {now : Instant} {h : Timer.Handle}
    (hfalse : (q.cancel now h).1 = false) : (q.cancel now h).2 = q := by
  unfold Timer.Queue.cancel at *
  split at hfalse
  · rfl
  · split at hfalse
    · rename_i hc
      simp [hc]
    · simp at hfalse

theorem plays_cancelTimer (s : Service) (now : Instant) (h : Timer.Handle) :
    s.Plays ((s.cancelTimer now h).2.recordCall (.cancelled h)) := by
  refine .trans (.single (.cancel now h)) (.of_books ?_)
  unfold cancelTimer
  split
  · rename_i q heq
    rw [heq]
    rfl
  · rename_i q heq
    rw [timers_cancel_of_false (by rw [heq])]
    rfl

/-- **A request plays.** -/
theorem plays_perform (s : Service) (now : Instant) (q : Request) : s.Plays (s.perform now q).2 := by
  cases q with
  | openChannel channel mask => exact .ite (.of_books rfl)
  | closeChannel channel => exact .ite (.of_books rfl)
  | closeTransport h => exact .ite (.of_books rfl)
  | reopen h => exact .ite (.of_books rfl)
  | write h data =>
    refine .ite (.of_books ?_)
    exact books_updateConnection s h fun c => ⟨rfl, rfl⟩
  | schedule delay again timer =>
    exact .trans (.single (.schedule now delay again timer)) (.of_books rfl)
  | cancelTimer h => exact plays_cancelTimer s now h
  | removeTimer h => exact .single (.remove h)
  | setOption c =>
    refine .of_books ?_
    simp only [perform, setOption]
    split
    case h_6 => split <;> rfl
    all_goals rfl
  | stop => exact .ite (.of_books rfl)

variable {σ : Type} [Host σ]

theorem plays_runScript (script : Script σ) (s : Service) : s.Plays (runScript script s).1 := by
  induction script generalizing s with
  | done w => exact .refl s
  | call w q next ih => exact (plays_perform s _ q).trans (ih _ _ _)

theorem plays_deliver (callback : Nat) (e : Event) (s : Service) (w : σ) :
    s.Plays (deliver callback e s w).1 := by
  have hrecord : s.Plays { s with delivered := s.delivered.push (callback, e) } := .of_books rfl
  exact hrecord.trans (plays_runScript _ _)

theorem plays_deliverAll (callback : Nat) (events : List Event) (s : Service) (w : σ) :
    s.Plays (deliverAll callback events s w).1 := by
  induction events generalizing s w with
  | nil => exact .refl s
  | cons e rest ih => exact (plays_deliver callback e s w).trans (ih _ _)

theorem plays_dispatch (max : Nat) (s : Service) (w : σ) : s.Plays (dispatch max s w).2.1 := by
  have hpop : s.Plays { s with events := (EventQueue.popBatch s.events max).2 } := .of_books rfl
  simp only [dispatch]
  split
  · exact hpop.trans (plays_deliverAll _ _ _ _)
  · exact hpop

end Service

/-- The channel that a timer is for, if it is not the application's. -/
def Task.channel? : Task → Option Nat
  | .connectTimeout i | .reconnect i => some i
  | .user _ => none

/-- The system numbers its errors from one. -/
structure Host.ErrorsNonzero (σ : Type) [Host σ] : Prop where
  connect : ∀ (stream : Bool) (port : UInt16) (a : SocketAddress) (w : σ),
    (Host.connect stream port a w).1 ≠ .error (.os 0)
  connectError : ∀ (d : Descriptor) (w : σ), (Host.connectError d w).1 ≠ some (.os 0)
  bindServer : ∀ (stream : Bool) (a : SocketAddress) (w : σ),
    (Host.bindServer stream a w).1 ≠ .error (.os 0)

theorem IoError.status_ne_ok {e : IoError} (h : e ≠ .os 0) : e.status ≠ Status.ok := by
  have hunknown : Status.unknown ≠ Status.ok := by decide
  cases e with
  | os code => exact fun heq => h (congrArg IoError.os heq)
  | kind k => exact hunknown
  | custom k message => exact hunknown

namespace Reactor

variable {σ : Type} [Host σ]

/-- A socket is taken over and announced. -/
def announced (r : Reactor σ) (i : Nat) (mask : ChannelMask) (d : Descriptor) : Reactor σ :=
  (r.addTransport i mask d).2.record
    (.connectResponse i Status.ok (some (r.addTransport i mask d).1))

/-- A connection is closed and its loss told. -/
def farewell (r : Reactor σ) (t : Transport) (status : Status) : Reactor σ :=
  { r with service := r.service.updateConnection t.handle (·.close status) }.record
    (.connectionLost t.handle.channel status t.handle)

/-- One thing done for channel `i`. -/
inductive Move (i : Nat) : Reactor σ → Reactor σ → Prop
  | aside {r r' : Reactor σ} (hservice : r'.service = r.service) (hchannels : r'.channels = r.channels)
      (htransports : r'.transports = r.transports) : Move i r r'
  | play {r : Reactor σ} {s : Service} (h : r.service.Play s) : Move i r { r with service := s }
  | channel {r : Reactor σ} {f : Channel → Channel}
      (hf : ∀ c, r.channel? i = some c → (f c).state = c.state ∧ (f c).timer = c.timer) :
      Move i r (r.updateChannel i f)
  | state {r : Reactor σ} (state : ChannelState) : Move i r (r.setState i state)
  | drop {r : Reactor σ} {h : Timer.Handle} (hh : (r.channel? i).bind (·.timer) = some h) :
      Move i r ({ r with service := (r.service.removeTimer h).2 }.updateChannel i
        ({ · with timer := none }))
  | take {r : Reactor σ} : Move i r (r.updateChannel i ({ · with timer := none }))
  | arm {r : Reactor σ} (now : Instant) (delay : Duration) {task : Task}
      (htask : task.channel? = some i) :
      Move i r ({ r with service := (r.service.addTimer now delay false task).2 }.updateChannel i
        ({ · with timer := some r.service.nextTimer }))
  | transport {r : Reactor σ} (id : TransportId) {f : Transport → Transport}
      (hf : ∀ t, (f t).handle = t.handle) :
      Move i r { r with transports := r.transports.modify id f }
  | refuse {r : Reactor σ} {status : Status} (h : Host.ErrorsNonzero σ → status ≠ Status.ok) :
      Move i r (r.record (.connectResponse i status none))
  | packet {r : Reactor σ} {id : TransportId} {t : Transport} (ht : r.transports.get? id = some t)
      (channel : Nat) (payload : Bytes) : Move i r (r.record (.packet channel t.handle payload))
  | announce {r : Reactor σ} (mask : ChannelMask) (d : Descriptor) : Move i r (r.announced i mask d)
  /-- An announcement whose packet follows at once. -/
  | greet {r : Reactor σ} {s : Service} (mask : ChannelMask) (d : Descriptor)
      (hplays : (r.announced i mask d).service.Plays s) (channel : Nat) (payload : Bytes) :
      Move i r ({ r.announced i mask d with service := s }.record
        (.packet channel (r.addTransport i mask d).1 payload))
  | lose {r : Reactor σ} {id : TransportId} {t : Transport} {s : Service} (status : Status)
      (ht : r.transports.get? id = some t) (hi : t.handle.channel = i)
      (hplays : (r.farewell t status).service.Plays s) :
      Move i r { r with service := s, transports := (r.transports.remove id).2 }

/-- Any number of moves of one channel. -/
def Path (i : Nat) : Reactor σ → Reactor σ → Prop := Relation.ReflTransGen (Move i)

variable {r r' : Reactor σ} {i : Nat}

theorem Path.refl (r : Reactor σ) : Path i r r := Relation.ReflTransGen.refl

theorem Path.single (h : Move i r r') : Path i r r' := Relation.ReflTransGen.single h

theorem Path.trans {r'' : Reactor σ} (h : Path i r r') (h' : Path i r' r'') : Path i r r'' :=
  Relation.ReflTransGen.trans h h'

/-- What is done under a condition only. -/
theorem Path.ite {r₁ r₂ : Reactor σ} {p : Prop} [Decidable p] (h₁ : Path i r r₁)
    (h₂ : Path i r r₂) : Path i r (if p then r₁ else r₂) := by
  split
  · exact h₁
  · exact h₂

theorem path_aside (hservice : r'.service = r.service) (hchannels : r'.channels = r.channels)
    (htransports : r'.transports = r.transports) : Path i r r' :=
  .single (.aside hservice hchannels htransports)

theorem path_plays {s : Service} (h : r.service.Plays s) : Path i r { r with service := s } := by
  induction h with
  | refl => exact .refl _
  | tail _ hplay ih => exact ih.trans (.single (.play hplay))

theorem path_world (r : Reactor σ) (w : σ) : Path i r { r with world := w } := path_aside rfl rfl rfl

theorem path_watchFor (r : Reactor σ) (d : Descriptor) (owner : Owner) (interest : Interest) :
    Path i r (r.watchFor d owner interest) :=
  path_aside rfl rfl rfl

theorem path_unwatch (r : Reactor σ) (d : Descriptor) : Path i r (r.unwatch d) :=
  path_aside rfl rfl rfl

theorem path_closeSocket (r : Reactor σ) (d : Descriptor) : Path i r (r.closeSocket d) :=
  path_aside rfl rfl rfl

theorem path_shutdownSocket (r : Reactor σ) (d : Descriptor) : Path i r (r.shutdownSocket d) :=
  path_aside rfl rfl rfl

/-- Neither a channel nor a transport changes, whatever is played. -/
structure Idle (r r' : Reactor σ) : Prop where
  channels : r'.channels = r.channels
  transports : r'.transports = r.transports
  plays : r.service.Plays r'.service

omit [Host σ] in
theorem Idle.refl (r : Reactor σ) : r.Idle r := ⟨rfl, rfl, .refl _⟩

omit [Host σ] in
theorem Idle.trans {r'' : Reactor σ} (h : r.Idle r') (h' : r'.Idle r'') : r.Idle r'' :=
  ⟨h'.channels.trans h.channels, h'.transports.trans h.transports, h.plays.trans h'.plays⟩

/-- That is a path of any channel. -/
theorem Idle.path (h : r.Idle r') : Path i r r' :=
  (path_plays h.plays).trans (path_aside rfl h.channels h.transports)

theorem path_updateChannel (r : Reactor σ) (i : Nat) {f : Channel → Channel}
    (hf : ∀ c, (f c).state = c.state ∧ (f c).timer = c.timer) : Path i r (r.updateChannel i f) :=
  .single (.channel fun c _ => hf c)

theorem path_setState (r : Reactor σ) (i : Nat) (state : ChannelState) :
    Path i r (r.setState i state) :=
  .single (.state state)

/-! ## Timers of channels -/

theorem path_dropTimer (r : Reactor σ) (i : Nat) : Path i r (r.dropTimer i) := by
  unfold dropTimer
  split
  · rename_i h hh
    exact .single (.drop hh)
  · exact .refl _

theorem path_armTimer (r : Reactor σ) {i : Nat} (delay : Duration) {task : Task}
    (htask : task.channel? = some i) : Path i r (r.armTimer i delay task) := by
  have hnow : Path i (r.dropTimer i) (r.dropTimer i).now.2 := path_world _ _
  exact ((path_dropTimer r i).trans hnow).trans (.single (.arm _ delay htask))

theorem path_scheduleReconnect (r : Reactor σ) (i : Nat) : Path i r (r.scheduleReconnect i) := by
  unfold scheduleReconnect
  split
  · exact path_armTimer r _ rfl
  · exact .refl _

/-! ## Events -/

/-- **An event is recorded, and then the application may play.** -/
theorem exists_emit (r : Reactor σ) (e : Event) :
    ∃ s w, (r.record e).service.Plays s ∧ r.emit e = { r.record e with service := s, world := w } := by
  simp only [emit]
  split
  · refine ⟨_, (r.record e).world, ?_, rfl⟩
    exact .of_books rfl
  · split
    · exact ⟨_, _, Service.plays_deliver _ _ _ _, rfl⟩
    · exact ⟨_, r.world, .refl _, rfl⟩

theorem path_emit {e : Event} (h : Path i r (r'.record e)) : Path i r (r'.emit e) := by
  obtain ⟨s, w, hplays, heq⟩ := exists_emit r' e
  rw [heq]
  exact h.trans (Idle.path ⟨rfl, rfl, hplays⟩)

@[simp] theorem transports_emit (r : Reactor σ) (e : Event) : (r.emit e).transports = r.transports := by
  obtain ⟨s, w, -, heq⟩ := exists_emit r e
  rw [heq]
  rfl

theorem path_refuse (r : Reactor σ) (i : Nat) {status : Status}
    (h : Host.ErrorsNonzero σ → status ≠ Status.ok) :
    Path i r (r.emit (.connectResponse i status none)) :=
  path_emit (.single (.refuse h))

theorem path_packet {id : TransportId} {t : Transport} (ht : r.transports.get? id = some t)
    (channel : Nat) (payload : Bytes) : Path i r (r.emit (.packet channel t.handle payload)) :=
  path_emit (.single (.packet ht channel payload))

theorem path_packets {id : TransportId} {t : Transport} (ht : r.transports.get? id = some t)
    (channel : Nat) (payloads : List Bytes) :
    Path i r (r.emitAll (payloads.map (.packet channel t.handle))) := by
  induction payloads generalizing r with
  | nil => exact .refl _
  | cons payload rest ih =>
    refine (path_packet ht channel payload).trans (ih ?_)
    rw [transports_emit]
    exact ht

theorem path_announce (r : Reactor σ) (i : Nat) (mask : ChannelMask) (d : Descriptor) :
    Path i r ((r.addTransport i mask d).2.emit
      (.connectResponse i Status.ok (some (r.addTransport i mask d).1))) := by
  obtain ⟨s, w, hplays, heq⟩ := exists_emit (r.addTransport i mask d).2
    (.connectResponse i Status.ok (some (r.addTransport i mask d).1))
  have hannounced : Path i r (r.announced i mask d) := .single (.announce mask d)
  rw [heq]
  exact hannounced.trans (Idle.path ⟨rfl, rfl, hplays⟩)

theorem idle_now (r : Reactor σ) : r.Idle r.now.2 := ⟨rfl, rfl, .refl _⟩

/-- Sending takes messages from a connection's queue and nothing else. -/
theorem idle_flushTransport (r : Reactor σ) (now : Instant) (id : TransportId) :
    r.Idle (r.flushTransport now id).2 := by
  unfold flushTransport
  split
  · exact .refl _
  · split
    · exact .refl _
    · refine ⟨rfl, rfl, .of_books ?_⟩
      exact Service.books_updateConnection _ _ fun _ => ⟨rfl, rfl⟩

/-! ## What happens to the arena -/

omit [Host σ] in
@[simp] theorem transports_dropTimer (r : Reactor σ) (i : Nat) :
    (r.dropTimer i).transports = r.transports := by
  unfold dropTimer
  split <;> rfl

@[simp] theorem transports_armTimer (r : Reactor σ) (i : Nat) (delay : Duration) (task : Task) :
    (r.armTimer i delay task).transports = r.transports :=
  transports_dropTimer r i

@[simp] theorem transports_scheduleReconnect (r : Reactor σ) (i : Nat) :
    (r.scheduleReconnect i).transports = r.transports := by
  unfold scheduleReconnect
  split
  · exact transports_armTimer _ _ _ _
  · rfl

@[simp] theorem transports_emitAll (r : Reactor σ) (events : List Event) :
    (r.emitAll events).transports = r.transports := by
  induction events generalizing r with
  | nil => rfl
  | cons e rest ih => exact (ih _).trans (transports_emit r e)

@[simp] theorem transports_afterLoss (r : Reactor σ) (i : Nat) (status : Status) :
    (r.afterLoss i status).transports = r.transports :=
  afterLoss_cases (motive := fun r' => r'.transports = r.transports) rfl (fun _ _ _ => rfl)
    fun _ _ _ _ => transports_scheduleReconnect _ _

@[simp] theorem transports_loseTransport (r : Reactor σ) (id : TransportId) (status : Status) :
    (r.loseTransport id status).transports = (r.transports.remove id).2 := by
  unfold loseTransport
  split
  · rename_i ht
    simp only [Arena.remove, ht]
  · rw [transports_afterLoss]
    exact congrArg (fun a : Arena Transport => (a.remove id).2) (transports_emit _ _)

@[simp] theorem transports_closeTransport (r : Reactor σ) (id : TransportId) :
    (r.closeTransport id).transports = (r.transports.remove id).2 := by
  unfold closeTransport
  split
  · rw [transports_loseTransport, (idle_flushTransport _ _ id).transports]
    rfl
  · rename_i hnot
    have ht : r.transports.get? id = none := by simpa [Arena.contains] using hnot
    simp only [Arena.remove, ht]

@[simp] theorem transports_releaseSocket (r : Reactor σ) (i : Nat) :
    (r.releaseSocket i).transports = r.transports := by
  unfold releaseSocket
  split <;> rfl

/-! ## What happens to the channels -/

omit [Host σ] in
@[simp] theorem channel?_updateChannel_self (r : Reactor σ) (i : Nat) (f : Channel → Channel) :
    (r.updateChannel i f).channel? i = (r.channel? i).map f := by
  simp [channel?, updateChannel]

omit [Host σ] in
/-- A channel that was changed comes from the channel before. -/
theorem exists_of_updateChannel {r : Reactor σ} {i : Nat} {f : Channel → Channel} {c' : Channel}
    (hc' : (r.updateChannel i f).channel? i = some c') : ∃ c, r.channel? i = some c ∧ f c = c' :=
  Option.map_eq_some_iff.1 ((channel?_updateChannel_self r i f).symm.trans hc')

omit [Host σ] in
@[simp] theorem channel?_setState (r : Reactor σ) (i : Nat) (state : ChannelState) :
    (r.setState i state).channel? i = (r.channel? i).map ({ · with state := state }) :=
  channel?_updateChannel_self r i _

omit [Host σ] in
@[simp] theorem channel?_dropTimer (r : Reactor σ) (i : Nat) :
    (r.dropTimer i).channel? i = (r.channel? i).map ({ · with timer := none }) := by
  unfold dropTimer
  split
  · exact channel?_updateChannel_self _ i _
  · rename_i hnone
    cases hc : r.channel? i with
    | none => rfl
    | some c =>
      have htimer : c.timer = none := by simpa [hc] using hnone
      rw [Option.map_some, ← htimer]

omit [Host σ] in
theorem nextTimer_dropTimer (r : Reactor σ) (i : Nat) :
    (r.dropTimer i).service.nextTimer = r.service.nextTimer := by
  unfold dropTimer
  split <;> rfl

@[simp] theorem channel?_releaseSocket (r : Reactor σ) (i : Nat) :
    (r.releaseSocket i).channel? i = (r.channel? i).map ({ · with socket := none }) := by
  unfold releaseSocket
  split
  · exact channel?_updateChannel_self _ i _
  · rename_i hnone
    cases hc : r.channel? i with
    | none => rfl
    | some c =>
      have hsocket : c.socket = none := by simpa [hc] using hnone
      rw [Option.map_some, ← hsocket]

@[simp] theorem channel?_armTimer (r : Reactor σ) (i : Nat) (delay : Duration) (task : Task) :
    (r.armTimer i delay task).channel? i =
      (r.channel? i).map ({ · with timer := some r.service.nextTimer }) := by
  have harm : (r.armTimer i delay task).channel? i = ((r.dropTimer i).channel? i).map
      ({ · with timer := some (r.dropTimer i).service.nextTimer }) := channel?_updateChannel_self _ i _
  rw [harm, nextTimer_dropTimer, channel?_dropTimer, Option.map_map]
  rfl

@[simp] theorem channels_emit (r : Reactor σ) (e : Event) : (r.emit e).channels = r.channels := by
  obtain ⟨s, w, -, heq⟩ := exists_emit r e
  rw [heq]
  rfl

@[simp] theorem channel?_emit (r : Reactor σ) (e : Event) (i : Nat) :
    (r.emit e).channel? i = r.channel? i :=
  congrArg (·[i]?) (channels_emit r e)

@[simp] theorem channel?_applyKeepAlive (r : Reactor σ) (d : Descriptor) (i : Nat) :
    (r.applyKeepAlive d).channel? i = r.channel? i := by
  unfold applyKeepAlive
  split <;> rfl

@[simp] theorem transports_applyKeepAlive (r : Reactor σ) (d : Descriptor) :
    (r.applyKeepAlive d).transports = r.transports := by
  unfold applyKeepAlive
  split <;> rfl

@[simp] theorem channel?_addTransport (r : Reactor σ) (i j : Nat) (mask : ChannelMask)
    (d : Descriptor) : (r.addTransport i mask d).2.channel? j = r.channel? j := rfl

/-! ## Transports -/

theorem path_afterLoss (r : Reactor σ) (i : Nat) (status : Status) :
    Path i r (r.afterLoss i status) := by
  have hlapsed : Path i r (r.lapsed i status) :=
    (path_updateChannel r i fun _ => by exact ⟨rfl, rfl⟩).trans (path_setState _ i _)
  exact afterLoss_cases (.refl r) (fun _ _ _ => hlapsed)
    fun _ _ _ _ => hlapsed.trans (path_scheduleReconnect _ i)

/-- **A transport is lost by moves of its channel.** -/
theorem path_loseTransport {id : TransportId} {t : Transport} (ht : r.transports.get? id = some t)
    (status : Status) : Path t.handle.channel r (r.loseTransport id status) := by
  unfold loseTransport
  rw [ht]
  refine .trans ?_ (path_afterLoss _ _ status)
  refine .trans ?_ (path_updateChannel _ _ fun _ => by exact ⟨rfl, rfl⟩)
  have hquiet : Path t.handle.channel r ((r.unwatch t.descriptor).shutdownSocket t.descriptor) :=
    (path_unwatch r _).trans (path_shutdownSocket _ _)
  refine hquiet.trans ?_
  let r₁ := (r.unwatch t.descriptor).shutdownSocket t.descriptor
  let r₂ := { r₁ with service := r₁.service.updateConnection t.handle (·.close status) }
  obtain ⟨s, w, hplays, heq⟩ := exists_emit r₂ (.connectionLost t.handle.channel status t.handle)
  have hlost : Path t.handle.channel r₁
      { r₁ with service := s, transports := (r₁.transports.remove id).2 } :=
    .single (.lose status ht rfl hplays)
  refine hlost.trans (path_aside ?_ ?_ ?_)
  · exact congrArg (·.service) heq
  · exact congrArg (·.channels) heq
  · exact congrArg (fun x : Reactor σ => (x.transports.remove id).2) heq.symm |>.symm

theorem path_now (r : Reactor σ) : Path i r r.now.2 := path_world r _

theorem path_transport (r : Reactor σ) (id : TransportId) {f : Transport → Transport}
    (hf : ∀ t, (f t).handle = t.handle) : Path i r { r with transports := r.transports.modify id f } :=
  .single (.transport id hf)

/-! ## Closing channels -/

theorem path_releaseSocket (r : Reactor σ) (i : Nat) : Path i r (r.releaseSocket i) := by
  unfold releaseSocket
  split
  · refine .trans ?_ (path_closeSocket _ _)
    exact (path_updateChannel r i fun _ => by exact ⟨rfl, rfl⟩).trans (path_unwatch _ _)
  · exact .refl _

@[simp] theorem transports_silenced (r : Reactor σ) (i : Nat) :
    (r.silenced i).transports = r.transports := by
  rw [silenced, transports_releaseSocket]
  split
  · exact transports_dropTimer r i
  · exact transports_dropTimer r i

/-! ## Room for the slots -/

theorem Move.size_le (h : Move i r r') : r.transports.slots.size ≤ r'.transports.slots.size := by
  cases h with
  | aside hservice hchannels htransports => exact Nat.le_of_eq (congrArg (·.slots.size) htransports.symm)
  | transport id hf => exact Nat.le_of_eq (Arena.size_modify _ _ _).symm
  | announce mask d => exact Arena.size_le_insertWith _ _
  | greet mask d hplays channel payload => exact Arena.size_le_insertWith _ _
  | lose status ht hi hplays => exact Nat.le_of_eq (Arena.size_remove _ _).symm
  | _ => exact Nat.le_refl _

/-- **Slots are never given up**, so what fits in the end did fit all along. -/
theorem Path.size_le (h : Path i r r') : r.transports.slots.size ≤ r'.transports.slots.size := by
  induction h with
  | refl => exact Nat.le_refl _
  | tail _ hmove ih => exact Nat.le_trans ih hmove.size_le

theorem Path.fits (h : Path i r r') (hfits : r'.transports.Fits) : r.transports.Fits :=
  Nat.le_trans h.size_le hfits

/-! ## From channel to channel -/

/-- Any number of moves of any channels. -/
def Trail : Reactor σ → Reactor σ → Prop := Relation.ReflTransGen fun r r' => ∃ i, Move i r r'

theorem Trail.refl (r : Reactor σ) : Trail r r := Relation.ReflTransGen.refl

theorem Trail.trans {r'' : Reactor σ} (h : Trail r r') (h' : Trail r' r'') : Trail r r'' :=
  Relation.ReflTransGen.trans h h'

theorem Path.trail (h : Path i r r') : Trail r r' := by
  induction h with
  | refl => exact .refl r
  | tail _ hmove ih => exact Relation.ReflTransGen.tail ih ⟨i, hmove⟩

/-- **What every move keeps, a trail keeps.** -/
theorem Trail.keeps {P : Reactor σ → Prop} (hP : ∀ {i r r'}, Move i r r' → P r → P r') (h : Trail r r')
    (hr : P r) : P r' := by
  induction h with
  | refl => exact hr
  | tail _ hmove ih =>
    obtain ⟨i, hmove⟩ := hmove
    exact hP hmove ih

theorem Idle.trail (h : r.Idle r') : Trail r r' := (Idle.path (i := 0) h).trail

theorem trail_foldl {α : Type} {f : Reactor σ → α → Reactor σ} (hf : ∀ r x, Trail r (f r x))
    (xs : List α) (r : Reactor σ) : Trail r (xs.foldl f r) :=
  List.foldlRecOn xs f (.refl r) fun r' hr x _ => hr.trans (hf r' x)

theorem Trail.size_le (h : Trail r r') : r.transports.slots.size ≤ r'.transports.slots.size :=
  h.keeps (P := fun r' => r.transports.slots.size ≤ r'.transports.slots.size)
    (fun hmove hle => Nat.le_trans hle hmove.size_le) (Nat.le_refl _)

theorem Trail.fits (h : Trail r r') (hfits : r'.transports.Fits) : r.transports.Fits :=
  Nat.le_trans h.size_le hfits

theorem Move.length (h : Move i r r') : r'.channels.length = r.channels.length := by
  cases h with
  | aside hservice hchannels htransports => rw [hchannels]
  | channel hf => exact List.length_modify _ _ _
  | state s => exact List.length_modify _ _ _
  | drop hh => exact List.length_modify _ _ _
  | take => exact List.length_modify _ _ _
  | arm now delay htask => exact List.length_modify _ _ _
  | _ => rfl

theorem Trail.length (h : Trail r r') : r'.channels.length = r.channels.length :=
  h.keeps (P := fun r' => r'.channels.length = r.channels.length)
    (fun hmove hlength => hmove.length.trans hlength) rfl

/-- Channels neither come nor go. -/
theorem Trail.exists_channel (h : Trail r r') {c' : Channel} (hc' : r'.channel? i = some c') :
    ∃ c, r.channel? i = some c := by
  have hlt : i < r.channels.length := h.length ▸ (List.getElem?_eq_some_iff.1 hc').1
  exact ⟨_, List.getElem?_eq_getElem hlt⟩

theorem Trail.exists_later (h : Trail r r') {c : Channel} (hc : r.channel? i = some c) :
    ∃ c', r'.channel? i = some c' := by
  have hlt : i < r'.channels.length := h.length ▸ (List.getElem?_eq_some_iff.1 hc).1
  exact ⟨_, List.getElem?_eq_getElem hlt⟩

end Reactor

end NetReactor
