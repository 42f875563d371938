import NetReactor.Proofs.Reactor.Custody
import NetReactor.Proofs.Reactor.Indices
import NetReactor.Proofs.Reactor.Routing
import NetReactor.Simulation.Prompt

/-!
# What makes no sense is ignored

A command says what to do by indices and identifiers, and may have been posted for other channels than there
are: by a sender that does not know better, by a resolver that outlived its run, or before the loop was
started again. Timers and readiness come late in the same way. **What names nothing changes nothing at all**
(`Misused`, `Late`, `Gone`); to reopen a channel that there is not closes the transport that the command names,
and nothing else (`Closes`). And whatever is asked of it, the loop takes no index out of range (`Robust`).
-/

namespace NetReactor

/-- All of a channel but how it stands and whom it serves. -/
def Channel.plan (c : Channel) :=
  (c.mask, c.endpoint, c.localPort, c.cache, c.pendingOpen, c.socket, c.timer)

namespace Reactor

variable {σ : Type}

/-- A command that makes no sense as things are. -/
inductive Misused (r : Reactor σ) : Command → Prop
  | openInvalid {i : Nat} {mask : ChannelMask} (hmask : mask.isValid = false) : Misused r (.openChannel i mask)
  | openOutside {i : Nat} (hi : r.channels.length ≤ i) (mask : ChannelMask) : Misused r (.openChannel i mask)
  | openAgain {i : Nat} {c : Channel} (hc : r.channel? i = some c) (hopening : c.state = .opening)
      (mask : ChannelMask) : Misused r (.openChannel i mask)
  | closeOutside {i : Nat} (hi : r.channels.length ≤ i) : Misused r (.closeChannel i)
  | closeGone {id : TransportId} (hid : r.transports.get? id = none) : Misused r (.closeTransport id)
  | answerOutside {a : Resolution} (hi : r.channels.length ≤ a.channel) : Misused r (.resolved a)
  /-- An answer to a lookup that was begun under another epoch. -/
  | answerOld {a : Resolution} {c : Channel} (hc : r.channel? a.channel = some c)
      (hepoch : a.epoch ≠ c.cache.epoch) : Misused r (.resolved a)
  | remoteOutside {i : Nat} (hi : r.channels.length ≤ i) (host : Option String) (port : Option UInt16) :
      Misused r (.setRemote i host port)
  | portOutside {i : Nat} (hi : r.channels.length ≤ i) (port : UInt16) : Misused r (.setLocalPort i port)

/-- A channel's timer that fires, and that the channel does not have any more. -/
def Late (r : Reactor σ) (e : Timer.Expired Task) : Prop :=
  ∃ i, e.payload.channel? = some i ∧ r.slot i ≠ some e.handle

/-- A socket is reported that its channel, or its transport, does not have any more. -/
def Gone (r : Reactor σ) : Owner → Prop
  | .interrupter => False
  | .channel i => (r.channel? i).bind (·.socket) = none
  | .transport id => r.transports.get? id = none

/-- A transport is closed from this side, and nothing else is touched. -/
structure Closes (r : Reactor σ) (id : TransportId) (t : Transport) (r' : Reactor σ) : Prop where
  transports : r'.transports = (r.transports.remove id).2
  watch : r'.watch = r.watch.deregister t.descriptor
  /-- Its channel keeps its plans, and the others are the same. -/
  channels : ∃ f, r'.channels = r.channels.modify t.handle.channel f ∧ ∀ c, (f c).plan = c.plan
  told : r'.chronicle = r.chronicle ++ [.connectionLost t.handle.channel Status.closedHere t.handle]
  /-- The timers are left to the application, which may be told at once. -/
  timers : ∃ s s' : Service, s.timers = r.service.timers ∧ s.Plays s' ∧ r'.service.timers = s'.timers
  deferred : r.options.deferEvents = true → r'.service.timers = r.service.timers

variable [Host σ] {r : Reactor σ}

/-! ## What is ignored -/

omit [Host σ] in
theorem channel?_of_le {i : Nat} (hi : r.channels.length ≤ i) : r.channel? i = none :=
  List.getElem?_eq_none hi

/-- **A misused command changes nothing.** -/
theorem perform_of_misused {c : Command} (h : r.Misused c) : r.perform c = r := by
  cases h with
  | @openInvalid i mask hmask =>
    simp only [perform, openChannel]
    split
    · rfl
    · simp [hmask]
  | openOutside hi mask => simp only [perform, openChannel, channel?_of_le hi]
  | openAgain hc hopening mask => simp [perform, openChannel_of_some hc, hopening]
  | closeOutside hi => simp only [perform, closeChannel, channel?_of_le hi]
  | closeGone hid => exact closeTransport_of_none hid
  | answerOutside hi => simp only [perform, resolved, channel?_of_le hi]
  | answerOld hc hepoch => simp [perform, resolved, hc, ResolveCache.accepts, hepoch]
  | remoteOutside hi host port => simp only [perform, setRemote, channel?_of_le hi]
  | portOutside hi port =>
    simp only [perform, updateChannel, List.modify_eq_self hi]

/-- **A late timer changes nothing.** -/
theorem fire_of_late {e : Timer.Expired Task} (h : r.Late e) : r.fire e = r := by
  obtain ⟨i, hi, hslot⟩ := h
  cases hpayload : e.payload with
  | user timer => simp [hpayload, Task.channel?] at hi
  | connectTimeout j =>
    obtain rfl : j = i := by simpa [hpayload, Task.channel?] using hi
    simp only [fire, hpayload, takeTimer_of_ne hslot]
  | reconnect j =>
    obtain rfl : j = i := by simpa [hpayload, Task.channel?] using hi
    simp only [fire, hpayload, takeTimer_of_ne hslot]

/-- **A report for what is gone changes nothing.** -/
theorem served_of_gone {x : Readiness Owner} (h : r.Gone x.token) :
    r.serveIfChannel x = r ∧ r.readIfTransport x = r := by
  unfold serveIfChannel readIfTransport
  cases htoken : x.token with
  | interrupter => simp [Gone, htoken] at h
  | channel i =>
    simp only [Gone, htoken] at h
    refine ⟨?_, rfl⟩
    cases hc : r.channel? i with
    | none => simp only [serveChannel, hc]
    | some c =>
      have hsocket : c.socket = none := by simpa [hc] using h
      simp only [serveChannel, hc, hsocket]
  | transport id =>
    simp only [Gone, htoken] at h
    refine ⟨rfl, ?_⟩
    simp only [readTransport, h]
    split <;> rfl

/-! ## What a close touches -/

theorem timers_emit_of_deferred (hdefer : r.options.deferEvents = true) (e : Event) :
    (r.emit e).service.timers = r.service.timers := by
  have hdefer' : (r.record e).options.deferEvents = true := hdefer
  simp only [emit, hdefer', if_true]
  rfl

/-- A close from this side plans no new attempt, so that the timers are as they are once the loss is told. -/
theorem timers_loseTransport {id : TransportId} {t : Transport} (ht : r.transports.get? id = some t) :
    ∃ (r₁ : Reactor σ) (e : Event), r₁.service.timers = r.service.timers ∧ r₁.options = r.options ∧
      (r.loseTransport id Status.closedHere).service.timers = (r₁.emit e).service.timers := by
  let r₀ := (r.unwatch t.descriptor).shutdownSocket t.descriptor
  let r₁ := { r₀ with service := r₀.service.updateConnection t.handle (·.close Status.closedHere) }
  let e := Event.connectionLost t.handle.channel Status.closedHere t.handle
  have hparted : (r.parted id t Status.closedHere).service.timers = (r₁.emit e).service.timers := rfl
  refine ⟨r₁, e, rfl, rfl, ?_⟩
  rw [loseTransport_of_some ht]
  exact afterLoss_cases (motive := fun r' => r'.service.timers = (r₁.emit e).service.timers) hparted
    (fun _ _ _ => hparted) fun _ _ _ hstatus => absurd rfl hstatus

theorem closes_loseTransport {id : TransportId} {t : Transport} (ht : r.transports.get? id = some t) :
    r.Closes id t (r.loseTransport id Status.closedHere) := by
  obtain ⟨r₁, e, htimers, hoptions, hemitted⟩ := timers_loseTransport ht
  refine ⟨transports_loseTransport r id _, ?_, ?_, chronicle_loseTransport ht _, ?_, fun hdefer => ?_⟩
  · have hparted : (r.parted id t Status.closedHere).watch = r.watch.deregister t.descriptor :=
      watch_emit _ _
    rw [loseTransport_of_some ht]
    refine afterLoss_cases hparted (fun _ _ _ => hparted) fun _ _ _ hstatus => absurd rfl hstatus
  · have hparted : (r.parted id t Status.closedHere).channels = r.channels.modify t.handle.channel
        fun c => { c with peers := c.peers.filter (·.2 ≠ id) } :=
      congrArg (List.modify · t.handle.channel _) (channels_emit _ _)
    rw [loseTransport_of_some ht]
    refine afterLoss_cases ?_ (fun _ _ _ => ?_) fun _ _ _ hstatus => absurd rfl hstatus
    · exact ⟨_, hparted, fun c => rfl⟩
    · simp only [lapsed, setState, updateChannel, hparted, List.modify_modify_eq]
      exact ⟨_, rfl, fun c => rfl⟩
  · obtain ⟨s, w, hplays, heq⟩ := exists_emit r₁ e
    exact ⟨(r₁.record e).service, s, htimers, hplays, by rw [hemitted, heq]⟩
  · rw [hemitted, timers_emit_of_deferred (hoptions ▸ hdefer), htimers]

theorem closes_closeTransport {id : TransportId} {t : Transport} (ht : r.transports.get? id = some t) :
    r.Closes id t (r.closeTransport id) := by
  let r₁ := (r.now.2.flushTransport (Host.now r.world).1 id).2
  have hidle : r.Idle r₁ := (idle_now r).trans (idle_flushTransport r.now.2 _ id)
  have hflushed : r₁.watch = r.watch ∧ r₁.service.timers = r.service.timers ∧ r₁.options = r.options :=
    flushTransport_cases (motive := fun r' => r'.watch = r.watch ∧ r'.service.timers = r.service.timers ∧
      r'.options = r.options) ⟨rfl, rfl, rfl⟩ fun _ _ _ _ => ⟨rfl, rfl, rfl⟩
  obtain ⟨hwatch, htimers, hoptions⟩ := hflushed
  have hclosed : r.closeTransport id = r₁.loseTransport id Status.closedHere :=
    if_pos (Arena.contains_iff.2 ⟨t, ht⟩)
  obtain ⟨htransports, hunwatched, hchannels, htold, hplayed, hdeferred⟩ :=
    closes_loseTransport (r := r₁) (hidle.transports.symm ▸ ht)
  rw [hidle.transports] at htransports
  rw [hwatch] at hunwatched
  rw [hidle.channels] at hchannels
  rw [chronicle_congr (emitted_of_plays hidle.plays)] at htold
  rw [htimers] at hplayed hdeferred
  rw [hclosed]
  exact ⟨htransports, hunwatched, hchannels, htold, hplayed, hoptions ▸ hdeferred⟩

/-- **To reopen a channel that there is not** closes the transport that the command names, if that is there. -/
theorem reopen_outside {i : Nat} (hi : r.channels.length ≤ i) (id : TransportId) :
    r.perform (.reopen i id) = r.closeTransport id := by
  have hlength : (r.closeTransport id).channels.length = r.channels.length :=
    (runs_closeTransport r id).channels
  have hnone : (r.closeTransport id).channel? i = none := channel?_of_le (hlength ▸ hi)
  simp only [perform, hnone]

/-! ## Whatever is asked -/

/-- The loop takes no index out of range, and ignores what makes no sense. -/
structure Robust (r : Reactor σ) : Prop where
  command : ∀ c, r.perform? c = some (r.perform c)
  channel : ∀ x, r.serveIfChannel? x = some (r.serveIfChannel x)
  transport : ∀ x, r.readIfTransport? x = some (r.readIfTransport x)
  timer : ∀ e, r.fire? e = some (r.fire e)
  misused : ∀ c, r.Misused c → r.perform c = r
  late : ∀ e, r.Late e → r.fire e = r
  gone : ∀ x : Readiness Owner, r.Gone x.token → r.serveIfChannel x = r ∧ r.readIfTransport x = r
  /-- To reopen a channel that there is not closes the transport that is named, or changes nothing. -/
  reopen : ∀ i id, r.channels.length ≤ i →
    r.transports.get? id = none ∧ r.perform (.reopen i id) = r ∨
      ∃ t, r.transports.get? id = some t ∧ r.Closes id t (r.perform (.reopen i id))

theorem Indexed.robust (hr : r.Indexed) : r.Robust where
  command := perform?_eq hr
  channel := serveIfChannel?_eq hr
  transport := readIfTransport?_eq hr
  timer := fire?_eq hr
  misused _ := perform_of_misused
  late _ := fire_of_late
  gone _ := served_of_gone
  reopen i id hi := by
    rw [reopen_outside hi]
    cases ht : r.transports.get? id with
    | none => exact .inl ⟨rfl, closeTransport_of_none ht⟩
    | some t => exact .inr ⟨t, rfl, closes_closeTransport ht⟩

end Reactor

namespace Course

variable {σ : Type} [Host σ] {x : Course σ}

/-- **In every state of every run the loop is up to whatever is asked of it**, whichever commands wait. -/
theorem robust_of_reachable (hx : x.Reachable) (commands : List Command) :
    (x.reactor.withCommands commands).Robust := by
  have htaken : Reactor.Runs x.reactor none (x.reactor.withCommands commands) :=
    (Reactor.Runs.refl _).keep rfl
  exact (hx.indexed.after htaken).robust

open Simulation in
/-- A client is connected, and a command left over from a run with more channels reopens the eighth of them: no
index is out of range, and the client's connection is closed, for that is the one it names. -/
theorem robust_with_leftover_command : ∃ (x : Course Prompt) (t : Transport) (r : Reactor Prompt),
    x.Reachable ∧ x.reactor.channels.length = 1 ∧ x.reactor.transports.get? ⟨0, 0⟩ = some t ∧
    (x.reactor.withCommands []).perform? (.reopen 7 ⟨0, 0⟩) = some r ∧
    (x.reactor.withCommands []).Closes ⟨0, 0⟩ t r := by
  have hnew : (new Options.standard (⟨1, []⟩ : Prompt)).Reachable := ⟨_, _, .refl⟩
  have hstart := hnew.step (.start rfl rfl 0 [⟨"10.0.0.1", 80⟩])
  have hasked := hstart.step (.request ⟨0⟩ (.openChannel 0 .tcpClient))
  have hconnected := hasked.step (.command (by rfl) (by rfl))
  have hrobust := robust_of_reachable hconnected []
  obtain ⟨hnone, -⟩ | ⟨t, ht, hcloses⟩ := hrobust.reopen 7 ⟨0, 0⟩ (by decide)
  · exact absurd hnone (Option.isSome_iff_ne_none.1 (by rfl))
  · exact ⟨_, t, _, hconnected, by rfl, ht, hrobust.command _, hcloses⟩

end Course

end NetReactor
