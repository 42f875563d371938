import NetReactor.Proofs.Reactor.Course
import NetReactor.Proofs.Reactor.Ledger

/-!
# Writers beside the loop

A write looks whether its connection is open, and enqueues its message afterwards; any number of threads
may stand between the two. The loop loses a transport in as many steps: it clears the connection's queue,
marks the connection closed, tells the loss, and frees the slot. A `Crowd` is the loop with the writes that are
underway, and all of them take their steps in any order; what happens to the queues is noted (`Touch`).

**Whatever a handler does, it does in such steps** (`Runs`), and so does the loop in all its runs
(`Course.Step.crowd`): what every step keeps, the loop keeps, whoever writes meanwhile.
-/

namespace NetReactor

namespace Arena

variable {α : Type} {a : Arena α}

/-- What is found after an insertion is the new value, or was there before, however many slots there are. -/
theorem get?_of_insertWith {build : TransportId → α} {id : TransportId} {v : α}
    (h : (a.insertWith build).2.get? id = some v) :
    id = (a.insertWith build).1 ∧ v = build id ∨ a.get? id = some v := by
  rw [insertWith_eq] at h ⊢
  rw [← get?_withVacancy]
  generalize a.withVacancy = x at h ⊢
  obtain ⟨b, i⟩ := x
  rw [get?_eq_some] at h ⊢
  simp only [occupy] at h ⊢
  by_cases hid : i = id.slot
  · subst hid
    obtain ⟨hlt, heq⟩ := Array.getElem?_eq_some_iff.1 h
    rw [Array.size_setIfInBounds] at hlt
    rw [Array.getElem_setIfInBounds_self, Slot.mk.injEq, Option.some.injEq] at heq
    have hnew : id = ⟨UInt32.ofNat id.slot, (b.slots.getD id.slot ⟨0, none⟩).generation⟩ :=
      TransportId.eq_of_slot (by simp [TransportId.slot]) heq.1.symm
    exact .inl ⟨hnew, by rw [← heq.2, ← hnew]⟩
  · rw [Array.getElem?_setIfInBounds_ne hid] at h
    exact .inr h

end Arena

namespace Service

/-- A connection's loss was told. -/
def Told (s : Service) (h : Handle) : Prop := ∃ m ∈ s.emitted.toList, m.event.loses h

/-- To clear a queue and close its connection is to close it. -/
theorem markClosed_clear (s : Service) (h : Handle) (status : Status) :
    (s.updateConnection h ({ · with outgoing := [] })).updateConnection h (·.markClosed status) =
      s.updateConnection h (·.close status) := by
  have hconnections : (s.connections.modify h.serial ({ · with outgoing := [] })).modify h.serial
      (·.markClosed status) = s.connections.modify h.serial (·.close status) := by
    refine Array.ext_getElem? fun k => ?_
    rw [Array.getElem?_modify, Array.getElem?_modify, Array.getElem?_modify]
    split
    · rw [Option.map_map]
      rfl
    · rfl
  simp only [updateConnection, hconnections]

end Service

/-- One thing that happens to a connection's queue; connections are known by their serial numbers. -/
inductive Touch
  /-- A write finds the connection open. -/
  | found (k : Nat) (data : Bytes)
  /-- A write enqueues its message. -/
  | put (k : Nat) (data : Bytes)
  /-- The loop drops what waits. -/
  | cleared (k : Nat)
  /-- The loop marks the connection closed. -/
  | closed (k : Nat)

/-- How far the loop is with a loss. -/
inductive Stage
  | begun
  | cleared
  | closed
  | told
deriving DecidableEq

/-- A loss that the loop is at. -/
structure Loss where
  id : TransportId
  handle : Handle
  status : Status
  stage : Stage

namespace Reactor

variable {σ : Type}

/-- The connection that is kept under an identifier. -/
def holder (r : Reactor σ) (id : TransportId) : Option Handle := (r.transports.get? id).map (·.handle)

/-- No connection changes, and none is added, kept elsewhere or told lost; there are as many channels as
before, and free slots are where they should be. -/
structure Aside (r r' : Reactor σ) : Prop where
  connections : r'.service.connections = r.service.connections
  holder : ∀ id, r'.holder id = r.holder id
  told : ∀ h, r'.service.Told h ↔ r.service.Told h
  channels : r'.channels.length = r.channels.length
  slots : r.transports.Sound → r'.transports.Sound

section
variable [Host σ] {r : Reactor σ} {id : TransportId}

/-- **A flush** takes messages off the queue of a connection that is kept, or does nothing. -/
theorem flushTransport_cases {now : Instant} {motive : Reactor σ → Prop} (hsame : motive r)
    (hflushed : ∀ h queue w, r.holder id = some h → motive { r with
      service := r.service.updateConnection h ({ · with outgoing := queue })
      world := w }) :
    motive (r.flushTransport now id).2 := by
  unfold flushTransport
  split
  · exact hsame
  · rename_i t ht
    split
    · exact hsame
    · exact hflushed t.handle _ _ (by rw [holder, ht]; rfl)

theorem holder_addTransport {i : Nat} {mask : ChannelMask} {d : Descriptor} {h : Handle}
    (hh : (r.addTransport i mask d).2.holder id = some h) :
    id = (r.addTransport i mask d).1.id ∧ h = (r.addTransport i mask d).1 ∨ r.holder id = some h := by
  obtain ⟨t, ht, rfl⟩ := Option.map_eq_some_iff.1 hh
  rcases Arena.get?_of_insertWith ht with ⟨hid, rfl⟩ | hold
  · refine .inl ⟨hid, ?_⟩
    rw [hid]
    rfl
  · exact .inr (by rw [holder, hold]; rfl)

/-- A connection that was made stays as it was when another is added. -/
theorem connections_addTransport_of_lt {i k : Nat} (hk : k < r.service.connections.size) (mask : ChannelMask)
    (d : Descriptor) :
    (r.addTransport i mask d).2.service.connections[k]? = r.service.connections[k]? :=
  Array.getElem?_push.trans (if_neg (Nat.ne_of_lt hk))

omit [Host σ] in
/-- A loop that starts keeps no connection. -/
@[simp]
theorem holder_new (s : Service) (w : σ) (endpoints : List Endpoint) (id : TransportId) :
    (new s w endpoints).holder id = none := by
  rw [holder, new, Arena.get?_empty]
  rfl

omit [Host σ] in
theorem holder_remove (r : Reactor σ) (id' : TransportId) :
    holder { r with transports := (r.transports.remove id').2 } id = if id = id' then none else r.holder id := by
  simp only [holder, Arena.get?_remove]
  split <;> rfl

end

end Reactor

/-- The loop, the loss that it is at, the writes that have found their connection open and not enqueued
their message yet, and what happened, the latest first. -/
structure Crowd (σ : Type) where
  reactor : Reactor σ
  loss : Option Loss
  underway : List (Handle × Bytes)
  history : List Touch

namespace Crowd

variable {σ : Type} [Host σ]

/-- A service that was never started. -/
def new (o : Options) (w : σ) : Crowd σ := ⟨.new (.ofOptions o) w [], none, [], []⟩

def service (x : Crowd σ) : Service := x.reactor.service

def withService (x : Crowd σ) (s : Service) : Crowd σ := { x with reactor := { x.reactor with service := s } }

/-- The first half of a write: the message is dropped unless the connection is open. -/
def check (x : Crowd σ) (h : Handle) (data : Bytes) : Crowd σ :=
  if x.service.isLive h then
    { x with underway := (h, data) :: x.underway, history := .found h.serial data :: x.history }
  else x

/-- One step of a writer or of the loop. -/
inductive Step : Crowd σ → Crowd σ → Prop
  | check {x : Crowd σ} (h : Handle) (data : Bytes) : Step x (x.check h data)
  /-- The second half of a write, at any later time. -/
  | put {x : Crowd σ} {h : Handle} {data : Bytes} {before after : List (Handle × Bytes)}
      (hw : x.underway = before ++ (h, data) :: after) (expires : Option Instant) :
      Step x { x.withService (x.service.updateConnection h (·.enqueue (.new data expires))) with
        underway := before ++ after
        history := .put h.serial data :: x.history }
  | aside {x : Crowd σ} {r : Reactor σ} (h : x.reactor.Aside r) : Step x { x with reactor := r }
  /-- The loop sends what waits on a transport. -/
  | flush {x : Crowd σ} (hidle : x.loss = none) (now : Instant) (id : TransportId) :
      Step x { x with reactor := (x.reactor.flushTransport now id).2 }
  /-- The loop takes a socket over for one of its channels. -/
  | add {x : Crowd σ} (hidle : x.loss = none) {i : Nat} (hi : i < x.reactor.channels.length)
      (mask : ChannelMask) (d : Descriptor) :
      Step x { x with reactor := (x.reactor.addTransport i mask d).2 }
  /-- The loop sets about losing a transport. -/
  | begin {x : Crowd σ} (hidle : x.loss = none) {id : TransportId} {h : Handle}
      (hh : x.reactor.holder id = some h) (status : Status) :
      Step x { x with loss := some ⟨id, h, status, .begun⟩ }
  | clear {x : Crowd σ} {id : TransportId} {h : Handle} {status : Status}
      (hloss : x.loss = some ⟨id, h, status, .begun⟩) :
      Step x { x.withService (x.service.updateConnection h ({ · with outgoing := [] })) with
        loss := some ⟨id, h, status, .cleared⟩
        history := .cleared h.serial :: x.history }
  | close {x : Crowd σ} {id : TransportId} {h : Handle} {status : Status}
      (hloss : x.loss = some ⟨id, h, status, .cleared⟩) :
      Step x { x.withService (x.service.updateConnection h (·.markClosed status)) with
        loss := some ⟨id, h, status, .closed⟩
        history := .closed h.serial :: x.history }
  | tell {x : Crowd σ} {id : TransportId} {h : Handle} {status : Status}
      (hloss : x.loss = some ⟨id, h, status, .closed⟩) :
      Step x { x with
        reactor := x.reactor.record (.connectionLost h.channel status h)
        loss := some ⟨id, h, status, .told⟩ }
  /-- The slot is freed. -/
  | part {x : Crowd σ} {id : TransportId} {h : Handle} {status : Status}
      (hloss : x.loss = some ⟨id, h, status, .told⟩) :
      Step x { x with
        reactor := { x.reactor with transports := (x.reactor.transports.remove id).2 }
        loss := none }
  /-- A run starts, with channels of its own. -/
  | start {x : Crowd σ} (hidle : x.loss = none) (callback : Nat) (endpoints : List Endpoint) :
      Step x { x with
        reactor := .new (x.service.start callback endpoints.length) x.reactor.world endpoints }

/-- Any number of steps. -/
abbrev Steps : Crowd σ → Crowd σ → Prop := Relation.ReflTransGen Step

/-- What writers and loop can come to. -/
def Reachable (x : Crowd σ) : Prop := ∃ o w, (new o w).Steps x

end Crowd

/-! ## The loop's handlers, step by step -/

namespace Reactor

variable {σ : Type}

/-- The same connections, kept and told of as before. -/
theorem Aside.of_eq {r r' : Reactor σ}
    (hsame : (r'.service.connections, r'.service.emitted, r'.transports) =
      (r.service.connections, r.service.emitted, r.transports))
    (hchannels : r'.channels.length = r.channels.length) : r.Aside r' := by
  simp only [Prod.mk.injEq] at hsame
  obtain ⟨hconnections, hemitted, htransports⟩ := hsame
  exact ⟨hconnections, fun id => by simp only [Reactor.holder, htransports],
    fun h => by simp only [Service.Told, hemitted], hchannels, fun hsound => htransports ▸ hsound⟩

/-- What is told is not a loss. -/
theorem aside_record (r : Reactor σ) {e : Event} (he : ∀ h, ¬ e.loses h) : r.Aside (r.record e) := by
  refine ⟨rfl, fun _ => rfl, fun h => ?_, rfl, id⟩
  simp only [Service.Told, record, Array.toList_push, List.mem_append, List.mem_singleton]
  constructor
  · rintro ⟨m, hm | rfl, hloses⟩
    · exact ⟨m, hm, hloses⟩
    · exact absurd hloses (he h)
  · rintro ⟨m, hm, hloses⟩
    exact ⟨m, .inl hm, hloses⟩

/-- A transport changes, and keeps its connection. -/
theorem aside_modify (r : Reactor σ) (id : TransportId) {f : Transport → Transport}
    (hf : ∀ t, (f t).handle = t.handle) : r.Aside { r with transports := r.transports.modify id f } := by
  refine ⟨rfl, fun id' => ?_, fun _ => .rfl, rfl, fun hsound => Arena.sound_modify hsound id f⟩
  simp only [holder, Arena.get?_modify, Option.map_map]
  refine congrArg (Option.map · _) (funext fun t => ?_)
  simp only [Function.comp_apply]
  split
  · exact hf t
  · rfl

variable [Host σ]

/-- From `r₀`, at no loss, the loop comes to `r`, at the loss `L`, whichever writes are underway. What its
callbacks write is noted. -/
structure Runs (r₀ : Reactor σ) (L : Option Loss) (r : Reactor σ) : Prop where
  steps : ∀ underway history, ∃ more,
    Crowd.Steps ⟨r₀, none, underway, history⟩ ⟨r, L, underway, more ++ history⟩
  channels : r.channels.length = r₀.channels.length

namespace Runs

variable {r₀ r r' : Reactor σ} {L L' : Option Loss} {i : Nat}

theorem refl (r : Reactor σ) : Runs r none r := ⟨fun _ _ => ⟨[], .refl⟩, rfl⟩

/-- More steps, with what they note. -/
theorem tail (h : Runs r₀ L r) (more : List Touch)
    (hsteps : ∀ underway history,
      Crowd.Steps ⟨r, L, underway, history⟩ ⟨r', L', underway, more ++ history⟩)
    (hchannels : r'.channels.length = r.channels.length) : Runs r₀ L' r' := by
  refine ⟨fun underway history => ?_, hchannels.trans h.channels⟩
  obtain ⟨before, hbefore⟩ := h.steps underway history
  refine ⟨more ++ before, hbefore.trans ?_⟩
  rw [List.append_assoc]
  exact hsteps underway (before ++ history)

/-- What is done under a condition only. -/
theorem ite {r₁ r₂ : Reactor σ} {p : Prop} [Decidable p] (h₁ : Runs r₀ L r₁) (h₂ : Runs r₀ L r₂) :
    Runs r₀ L (if p then r₁ else r₂) := by
  split
  · exact h₁
  · exact h₂

/-! ### What has no part -/

theorem aside (h : Runs r₀ L r) (haside : r.Aside r') : Runs r₀ L r' :=
  h.tail [] (fun _ _ => .single (.aside haside)) haside.channels

/-- Sockets, timers, commands and queued events have no part in it. -/
theorem keep (h : Runs r₀ L r) (hsame : (r'.service.connections, r'.service.emitted, r'.transports,
    r'.channels) = (r.service.connections, r.service.emitted, r.transports, r.channels)) :
    Runs r₀ L r' := by
  simp only [Prod.mk.injEq] at hsame
  obtain ⟨hconnections, hemitted, htransports, hchannels⟩ := hsame
  exact h.aside (.of_eq (by rw [hconnections, hemitted, htransports]) (by rw [hchannels]))

theorem world (h : Runs r₀ L r) (w : σ) : Runs r₀ L { r with world := w } := h.keep rfl

theorem updateChannel (h : Runs r₀ L r) (i : Nat) (f : Channel → Channel) :
    Runs r₀ L (r.updateChannel i f) :=
  h.aside (.of_eq rfl (List.length_modify _ _ _))

theorem setState (h : Runs r₀ L r) (i : Nat) (state : ChannelState) : Runs r₀ L (r.setState i state) :=
  h.aside (.of_eq rfl (List.length_modify _ _ _))

theorem dropTimer (h : Runs r₀ L r) (i : Nat) : Runs r₀ L (r.dropTimer i) := by
  unfold Reactor.dropTimer
  split
  · rename_i g _
    have hremoved : Runs r₀ L { r with service := (r.service.removeTimer g).2 } := h.keep rfl
    exact hremoved.updateChannel i _
  · exact h

theorem armTimer (h : Runs r₀ L r) (i : Nat) (delay : Duration) (task : Task) :
    Runs r₀ L (r.armTimer i delay task) := by
  have hdropped := h.dropTimer i
  have hadded : Runs r₀ L { (r.dropTimer i).now.2 with
      service := ((r.dropTimer i).service.addTimer (r.dropTimer i).now.1 delay false task).2 } :=
    hdropped.keep rfl
  exact hadded.updateChannel i _

theorem scheduleReconnect (h : Runs r₀ L r) (i : Nat) : Runs r₀ L (r.scheduleReconnect i) := by
  unfold Reactor.scheduleReconnect
  split
  · exact h.armTimer i _ _
  · exact h

theorem releaseSocket (h : Runs r₀ L r) (i : Nat) : Runs r₀ L (r.releaseSocket i) := by
  unfold Reactor.releaseSocket
  split
  · exact (h.updateChannel i _).keep rfl
  · exact h

theorem applyKeepAlive (h : Runs r₀ L r) (d : Descriptor) : Runs r₀ L (r.applyKeepAlive d) := by
  unfold Reactor.applyKeepAlive
  split
  · exact h.keep rfl
  · exact h

/-! ### Callbacks -/

/-- **A write in a callback** takes both its steps at once. -/
theorem write (h : Runs r₀ L r) (now : Instant) (c : Handle) (data : Bytes) :
    Runs r₀ L { r with service := r.service.write now c data } := by
  unfold Service.write
  split
  · rename_i hlive
    let expires := r.service.options.sendDeadline now
    let s := r.service.updateConnection c (·.enqueue (.new data expires))
    have henqueued : Runs r₀ L { r with service := s } := by
      refine h.tail [.put c.serial data, .found c.serial data] (fun underway history => ?_) rfl
      have hcheck : Crowd.Step ⟨r, L, underway, history⟩
          ⟨r, L, (c, data) :: underway, .found c.serial data :: history⟩ := by
        have hchecked := Crowd.Step.check (x := ⟨r, L, underway, history⟩) c data
        simpa only [Crowd.check, Crowd.service, hlive, if_true] using hchecked
      have hput := Crowd.Step.put (x := ⟨r, L, (c, data) :: underway, .found c.serial data :: history⟩)
        (List.nil_append _).symm expires
      exact .tail (.single hcheck) hput
    exact henqueued.keep rfl
  · exact h

theorem ask (h : Runs r₀ L r) (now : Instant) (q : Request) :
    Runs r₀ L { r with service := (r.service.perform now q).2 } := by
  cases q with
  | write c data => exact h.write now c data
  | setOption c =>
    refine h.keep ?_
    simp only [Service.perform, Service.setOption]
    split
    case h_6 => split <;> rfl
    all_goals rfl
  | cancelTimer g =>
    refine h.keep ?_
    simp only [Service.perform, Service.cancelTimer]
    split <;> rfl
  | schedule delay again timer => exact h.keep rfl
  | removeTimer g => exact h.keep rfl
  | openChannel | closeChannel | closeTransport | reopen | stop =>
    refine h.keep ?_
    simp only [Service.perform, Service.openChannel, Service.closeChannel, Service.closeTransport,
      Service.reopen, Service.stop]
    split <;> rfl

theorem runScript (h : Runs r₀ L r) (script : Script σ) :
    Runs r₀ L { r with service := (Service.runScript script r.service).1 } := by
  induction script generalizing r with
  | done w => exact h
  | call w q next ih => exact ih _ _ (h.ask _ q)

theorem deliver (h : Runs r₀ L r) (callback : Nat) (e : Event) :
    Runs r₀ L { r with
      service := (Service.deliver callback e r.service r.world).1
      world := (Service.deliver callback e r.service r.world).2 } := by
  let s := { r.service with delivered := r.service.delivered.push (callback, e) }
  have hrecorded : Runs r₀ L { r with service := s } := h.keep rfl
  exact (hrecorded.runScript (Application.onEvent callback e r.world)).keep rfl

theorem deliverAll (h : Runs r₀ L r) (callback : Nat) (events : List Event) :
    Runs r₀ L { r with
      service := (Service.deliverAll callback events r.service r.world).1
      world := (Service.deliverAll callback events r.service r.world).2 } := by
  induction events generalizing r with
  | nil => exact h
  | cons e rest ih => exact ih (h.deliver callback e)

theorem dispatch (h : Runs r₀ L r) (max : Nat) :
    Runs r₀ L { r with
      service := (r.service.dispatch max r.world).2.1
      world := (r.service.dispatch max r.world).2.2 } := by
  have hpopped : Runs r₀ L { r with service := { r.service with
      events := (EventQueue.popBatch r.service.events max).2 } } := h.keep rfl
  simp only [Service.dispatch]
  split
  · exact hpopped.deliverAll _ _
  · exact hpopped

/-- An event that is told reaches the queue or the callback. -/
theorem told {e : Event} (h : Runs r₀ L (r.record e)) : Runs r₀ L (r.emit e) := by
  simp only [Reactor.emit]
  split
  · exact h.keep rfl
  · split
    · exact h.deliver _ e
    · exact h

theorem emit (h : Runs r₀ L r) {e : Event} (he : ∀ c, ¬ e.loses c) : Runs r₀ L (r.emit e) :=
  told (h.aside (r.aside_record he))

variable {id : TransportId} {c : Channel}

/-! ### Transports -/

/-- **A connection that is kept is closed** in three steps. -/
theorem close (h : Runs r₀ none r) {k : Handle} (hk : r.holder id = some k) (status : Status) :
    Runs r₀ (some ⟨id, k, status, .closed⟩)
      { r with service := r.service.updateConnection k (·.close status) } := by
  refine h.tail [.closed k.serial, .cleared k.serial] (fun underway history => ?_) rfl
  have hbegun := Crowd.Step.begin (x := ⟨r, none, underway, history⟩) rfl hk status
  have hcleared := Crowd.Step.clear (x := ⟨r, some ⟨id, k, status, .begun⟩, underway, history⟩) rfl
  let r₁ := { r with service := r.service.updateConnection k ({ · with outgoing := [] }) }
  have hclosed := Crowd.Step.close
    (x := ⟨r₁, some ⟨id, k, status, .cleared⟩, underway, .cleared k.serial :: history⟩) rfl
  have hsame : r₁.service.updateConnection k (·.markClosed status) =
      r.service.updateConnection k (·.close status) := Service.markClosed_clear _ k status
  simp only [Crowd.withService, Crowd.service, hsame] at hclosed
  exact .tail (.tail (.single hbegun) hcleared) hclosed

theorem tell {k : Handle} {status : Status} (h : Runs r₀ (some ⟨id, k, status, .closed⟩) r) :
    Runs r₀ (some ⟨id, k, status, .told⟩) (r.emit (.connectionLost k.channel status k)) :=
  told (h.tail [] (fun _ _ => .single (.tell rfl)) rfl)

theorem part {k : Handle} {status : Status} (h : Runs r₀ (some ⟨id, k, status, .told⟩) r) :
    Runs r₀ none { r with transports := (r.transports.remove id).2 } :=
  h.tail [] (fun _ _ => .single (.part rfl)) rfl

theorem addTransport (h : Runs r₀ none r) (hi : i < r₀.channels.length) (mask : ChannelMask)
    (d : Descriptor) : Runs r₀ none (r.addTransport i mask d).2 :=
  h.tail [] (fun _ _ => .single (.add rfl (h.channels ▸ hi) mask d)) rfl

theorem flushTransport (h : Runs r₀ none r) (now : Instant) (id : TransportId) :
    Runs r₀ none (r.flushTransport now id).2 := by
  refine h.tail [] (fun _ _ => .single (.flush rfl now id)) ?_
  exact flushTransport_cases (motive := fun r' => r'.channels.length = r.channels.length) rfl
    fun _ _ _ _ => rfl

theorem lt_of_channel? (h : Runs r₀ L r) (hc : r.channel? i = some c) : i < r₀.channels.length :=
  h.channels ▸ (List.getElem?_eq_some_iff.1 hc).1

theorem emitAll (h : Runs r₀ L r) {events : List Event} (he : ∀ e ∈ events, ∀ k, ¬ e.loses k) :
    Runs r₀ L (r.emitAll events) :=
  List.foldlRecOn events Reactor.emit h fun _ hr e hmem => hr.emit (he e hmem)

theorem afterLoss (h : Runs r₀ L r) (i : Nat) (status : Status) : Runs r₀ L (r.afterLoss i status) := by
  have hlapsed : Runs r₀ L (r.lapsed i status) := (h.updateChannel i _).setState i _
  exact afterLoss_cases h (fun _ _ _ => hlapsed) fun _ _ _ _ => hlapsed.scheduleReconnect i

/-- **A loss**: the connection is closed and its loss told, and then its slot is freed. -/
theorem parted (h : Runs r₀ none r) {t : Transport} (ht : r.transports.get? id = some t) (status : Status) :
    Runs r₀ none (r.parted id t status) := by
  let r₁ := (r.unwatch t.descriptor).shutdownSocket t.descriptor
  have hshut : Runs r₀ none r₁ := h.keep rfl
  have hkept : r₁.holder id = some t.handle := congrArg (Option.map _) ht
  have hfreed := (hshut.close hkept status).tell.part
  refine updateChannel ?_ _ _
  exact hfreed.keep rfl

theorem loseTransport (h : Runs r₀ none r) (id : TransportId) (status : Status) :
    Runs r₀ none (r.loseTransport id status) := by
  cases ht : r.transports.get? id with
  | none => rwa [loseTransport_of_none ht]
  | some t =>
    rw [loseTransport_of_some ht]
    exact (h.parted ht status).afterLoss _ status

theorem unpacked (h : Runs r₀ none r) (id : TransportId) (t : Transport) :
    Runs r₀ none (r.unpacked id t) := by
  have hmodified := h.aside (r.aside_modify id
    (f := ({ · with assembler := (t.read r.options.framing r.world).assembler })) fun _ => rfl)
  have hreceived : Runs r₀ none (r.received id t) := hmodified.keep rfl
  exact hreceived.emitAll fun e he => by
    obtain ⟨payload, -, rfl⟩ := List.mem_map.1 he
    simp [Event.loses]

/-! ### Closing and opening -/

/-- A connect response is no loss. -/
theorem answer (h : Runs r₀ L r) (i : Nat) (status : Status) (k : Option Handle) :
    Runs r₀ L (r.emit (.connectResponse i status k)) :=
  h.emit fun _ => by simp [Event.loses]

theorem openFailed (h : Runs r₀ L r) (i : Nat) (status : Status) : Runs r₀ L (r.openFailed i status) := by
  have hclosed : Runs r₀ L (r.givenUp i status) :=
    (((h.dropTimer i).releaseSocket i).updateChannel i _).setState i _
  have htold := hclosed.answer i status none
  exact openFailed_cases (fun _ => h) (fun _ _ _ => htold) fun _ _ _ => htold.scheduleReconnect i

theorem connected (h : Runs r₀ none r) (hi : i < r₀.channels.length) (mask : ChannelMask)
    (d : Descriptor) : Runs r₀ none (r.connected i mask d) := by
  unfold Reactor.connected
  refine answer (setState (updateChannel (addTransport ?_ hi mask d) i _) i _) i _ _
  exact .ite ((h.dropTimer i).applyKeepAlive d) (h.dropTimer i)

theorem begun (h : Runs r₀ none r) (i : Nat) (mask : ChannelMask) : Runs r₀ none (r.begun i mask) := by
  have hopening := (h.updateChannel i ({ · with
    mask := mask, pendingOpen := true, lastStatus := Status.ok })).setState i .opening
  exact .ite (hopening.armTimer i _ _) hopening

theorem accepted (h : Runs r₀ none r) (hi : i < r₀.channels.length) (mask : ChannelMask)
    (d : Descriptor) : Runs r₀ none (r.accepted i mask d) :=
  ((h.applyKeepAlive d).addTransport hi mask d).answer i _ _

theorem packet (h : Runs r₀ L r) (i : Nat) (k : Handle) (payload : Bytes) :
    Runs r₀ L (r.emit (.packet i k payload)) :=
  h.emit fun _ => by simp [Event.loses]

theorem introduced (h : Runs r₀ none r) (hi : i < r₀.channels.length) (mask : ChannelMask)
    (d : Descriptor) (peer : SocketAddress) : Runs r₀ none (r.introduced i mask d peer) :=
  ((h.addTransport hi mask d).updateChannel i _).answer i _ _

theorem seek (h : Runs r₀ L r) (hseek : Seek i r r') : Runs r₀ L r' := by
  have hinquiring : Runs r₀ L (r.inquiring i) := h.updateChannel i _
  cases hseek with
  | retarget hc heq => exact h.updateChannel i _
  | refresh hc =>
    have hnow : Runs r₀ L r.now.2 := h.keep rfl
    exact hnow.updateChannel i _
  | inquire hc hdirty heq => exact hinquiring.keep rfl
  | @unanswered c w hc hdirty heq =>
    have hnow : Runs r₀ L { r.inquiring i with world := w }.now.2 := hinquiring.keep rfl
    exact hnow.updateChannel i _

/-! ### Chores -/

/-- **A chore is done step by step.** -/
theorem chore {T : Terms} (h : Runs r₀ none r) (hchore : Chore T i r r') : Runs r₀ none r' := by
  cases hchore with
  | ask hask => exact h.world _
  | drop => exact h.dropTimer i
  | settle => exact h.updateChannel i _
  | release => exact h.releaseSocket i
  | port port => exact h.updateChannel i _
  | seek hseeks hseek => exact h.seek hseek
  | answer hhears ha hc haccepts => exact h.updateChannel _ _
  | begin hopens hvalid hc hbare => exact h.begun i _
  | fail hthwarted hopening => exact h.openFailed i _
  | connect hc hclient heq => exact (h.world _).connected (h.lt_of_channel? hc) _ _
  | @connecting c target d w hc hclient heq hbare =>
    have hwatched : Runs r₀ none ({ r with world := w }.watchFor d (.channel i) .write) := h.keep rfl
    exact hwatched.updateChannel i _
  | @finish c d w hc hclient hsocket heq =>
    have hunbound : Runs r₀ none ({ r with world := w }.unbound i d) :=
      ((h.world w).updateChannel i _).keep rfl
    exact hunbound.connected (h.lt_of_channel? hc) c.mask d
  | @bind c address d w hc hserver heq hbare =>
    have hwatched : Runs r₀ none ({ r with world := w }.watchFor d (.channel i) .read) := h.keep rfl
    exact (hwatched.updateChannel i _).setState i _
  | accept hc htcp heq => exact (h.world _).accepted (h.lt_of_channel? hc) _ _
  | packet hrelays hpeer payload => exact h.packet i _ payload
  | greet hrelays hunknown heq payload =>
    exact ((h.world _).introduced (h.lt_of_channel? hrelays.channel) _ _ _).packet i _ payload
  | read ht hi hok => exact h.unpacked _ _
  | broken ht hi hfailed => exact (h.unpacked _ _).loseTransport _ _
  | flush now id => exact h.flushTransport now id
  | lose ht hi status => exact h.loseTransport _ status
  | empty halone => exact (h.updateChannel i _).setState i _
  | closing => exact h.answer i _ _
  | @renew id t c ht hc =>
    exact (h.aside (r.aside_modify id (f := ({ · with interest := c.wanted })) fun _ => rfl)).keep rfl
  | script timer cancelled =>
    exact (h.runScript (Application.onTimer timer cancelled r.world)).keep rfl

theorem chores {T : Terms} (h : Runs r₀ none r) (hchores : Chores T r r') : Runs r₀ none r' :=
  hchores.keeps (P := Runs r₀ none) (fun _ hchore h => h.chore hchore) h

theorem fire (h : Runs r₀ none r) (e : Timer.Expired Task) : Runs r₀ none (r.fire e) :=
  keeps_fire (P := Runs r₀ none) (yields_any e) (fun i h => h.updateChannel i _)
    (fun hchores h => h.chores hchores) h

theorem refreshOptions (h : Runs r₀ L r) : Runs r₀ L r.refreshOptions := .ite h (h.keep rfl)

theorem act (h : Runs r₀ none r) {a : Act} (ha : a.isTimer = false) : Runs r₀ none (r.act a) :=
  act_cases (T := .any) ha (fun _ => trivial) False.elim (h.keep rfl) (fun _ => h.keep rfl)
    (fun _ => .ite (h.keep rfl) h) h.chores

theorem teardown (h : Runs r₀ none r) : Runs r₀ none r.teardown :=
  (h.chores (chores_closed (T := .any) (fun _ => trivial) named_any)).keep rfl

end Runs

variable {r r' : Reactor σ}

/-- What a handler does, in chores of any kind, is done step by step. -/
theorem Chores.runs (h : Chores .any r r') : Runs r none r' := (Runs.refl r).chores h

theorem runs_closeTransport (r : Reactor σ) (id : TransportId) : Runs r none (r.closeTransport id) :=
  (chores_closeTransport fun _ _ => trivial).runs

theorem runs_cleared (r : Reactor σ) (i : Nat) (c : Channel) : Runs r none (r.cleared i c) :=
  (chores_cleared trivial named_any c).runs

theorem runs_openChannel (r : Reactor σ) (i : Nat) (mask : ChannelMask) :
    Runs r none (r.openChannel i mask) :=
  (chores_openChannel trivial trivial trivial named_any False.elim).runs

end Reactor

namespace Course

variable {σ : Type} [Host σ] {x y : Course σ}

/-- **Whatever the loop does, it does step by step**, and writers may stand between any two. -/
theorem Step.crowd (h : x.Step y) (underway : List (Handle × Bytes)) (history : List Touch) :
    ∃ more, Crowd.Steps ⟨x.reactor, none, underway, history⟩
      ⟨y.reactor, none, underway, more ++ history⟩ := by
  have hx : Reactor.Runs x.reactor none x.reactor := .refl _
  cases h with
  | request now q => exact (hx.ask now q).steps underway history
  | dispatch max => exact (hx.dispatch max).steps underway history
  | world w => exact (hx.world w).steps underway history
  | answer a =>
    have hposted : Reactor.Runs x.reactor none
      { x.reactor with service := x.service.post (.resolved a) } := hx.keep rfl
    exact hposted.steps underway history
  | refresh hrunning => exact hx.refreshOptions.steps underway history
  | act hrunning ha => exact (hx.act ha).steps underway history
  | @command c rest hrunning hc =>
    have htaken : Reactor.Runs x.reactor none (x.reactor.withCommands rest) := hx.keep rfl
    exact (htaken.chores (Reactor.chores_perform (Reactor.admits_any c))).steps underway history
  | poll hrunning hdue =>
    have hpolled : Reactor.Runs x.reactor none x.reactor.pollTimers.2 := hx.keep rfl
    exact hpolled.steps underway history
  | @fire e rest hrunning hdue => exact (hx.fire e).steps underway history
  | stop hrunning hstopping hdue => exact hx.teardown.steps underway history
  | start hrunning hdue callback endpoints => exact ⟨[], .single (.start rfl callback endpoints)⟩

/-- Every state of the loop is one that it comes to among writers. -/
theorem Reachable.crowd (hx : x.Reachable) : ∃ history, Crowd.Reachable ⟨x.reactor, none, [], history⟩ := by
  obtain ⟨o, w, hsteps⟩ := hx
  induction hsteps with
  | refl => exact ⟨[], o, w, .refl⟩
  | tail _ hstep ih =>
    obtain ⟨history, o, w, hcrowd⟩ := ih
    obtain ⟨more, hmore⟩ := hstep.crowd [] history
    exact ⟨more ++ history, o, w, hcrowd.trans hmore⟩

end Course

end NetReactor
