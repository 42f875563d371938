import NetReactor.Proofs.Lookup.Freshness
import NetReactor.Proofs.Reactor.Course
import NetReactor.Proofs.Reactor.Settled
import NetReactor.Simulation.Isolated

/-!
# Every open has an address

A client connects only when its target is ready, and then there is an address; a server binds only to an
address of its own or when its target is ready. **So nobody is ever told that there is no address to connect
to** (`Addressed`): a name that was looked up to nothing has failed, and the open that waited for it is told
just that (`chronicle_resolved_of_empty`).
-/

namespace NetReactor

/-- An event that does not report a missing address. -/
def Event.Placed (e : Event) : Prop :=
  ∀ channel handle?, e ≠ .connectResponse channel Status.noAddress handle?

theorem Event.placed_connectResponse {i : Nat} {status : Status} {handle? : Option Handle}
    (h : status ≠ Status.noAddress) : (Event.connectResponse i status handle?).Placed := by
  intro channel handle?' heq
  simp only [connectResponse.injEq] at heq
  exact h heq.2.1

/-- The system numbers its errors from one up. -/
structure Host.ErrorsPositive (σ : Type) [Host σ] : Prop where
  connect : ∀ (stream : Bool) (port : UInt16) (a : SocketAddress) (w : σ) {code : Int},
    (Host.connect stream port a w).1 = .error (.os code) → 0 < code
  connectError : ∀ (d : Descriptor) (w : σ) {code : Int},
    (Host.connectError d w).1 = some (.os code) → 0 < code
  bindServer : ∀ (stream : Bool) (a : SocketAddress) (w : σ) {code : Int},
    (Host.bindServer stream a w).1 = .error (.os code) → 0 < code

/-- No error of the system is taken for a missing address. -/
theorem IoError.status_ne_noAddress {e : IoError} (h : ∀ {code}, e = .os code → 0 < code) :
    e.status ≠ Status.noAddress := by
  have hunknown : Status.unknown ≠ Status.noAddress := by decide
  cases e with
  | os code =>
    have hpos : 0 < code := h rfl
    intro heq
    have hcode : code = (-25 : Int) := heq
    omega
  | kind k => exact hunknown
  | custom k message => exact hunknown

theorem Host.Reports.status_ne_noAddress {σ : Type} [Host σ] {e : IoError} (h : Host.Reports σ e)
    (herrors : Host.ErrorsPositive σ) : e.status ≠ Status.noAddress := by
  refine IoError.status_ne_noAddress fun heq => ?_
  cases h with
  | connect h => exact herrors.connect _ _ _ _ (by rw [h, heq])
  | connectError h => exact herrors.connectError _ _ (by rw [h, heq])
  | bindServer h => exact herrors.bindServer _ _ _ (by rw [h, heq])

/-- Calls led to what is known of the channel's target, and it is not client and server at once. -/
def Channel.Apt (c : Channel) : Prop := c.cache.Attained ∧ (c.mask.isClient && c.mask.isServer) = false

theorem Channel.apt_ofEndpoint (e : Endpoint) : (Channel.ofEndpoint e).Apt :=
  ⟨ResolveCache.attained_ofEndpoint e,
     (by decide : ((⟨0⟩ : ChannelMask).isClient && (⟨0⟩ : ChannelMask).isServer) = false)⟩

theorem ChannelMask.role_of_isValid {m : ChannelMask} (h : m.isValid = true) :
    (m.isClient && m.isServer) = false := by
  simp only [isValid, Bool.and_eq_true, bne_iff_ne] at h
  have hroles := h.1.2
  revert hroles
  cases m.isClient <;> cases m.isServer <;> simp

/-- A new target is known as far as it can be. -/
theorem Channel.Apt.retargeted {c : Channel} (hc : c.Apt) (host : Option String) (port : Option UInt16) :
    (c.retargeted host port).Apt := by
  have hhost : ∀ {c : Channel}, c.Apt → ∀ host, (c.setHost host).Apt := by
    intro c hc host
    unfold setHost
    split
    · exact hc
    · exact ⟨hc.1.perform (.setHost ⟨host, c.endpoint.port⟩), hc.2⟩
  have hport : ∀ {c : Channel}, c.Apt → ∀ port, (c.setPort port).Apt := by
    intro c hc port
    unfold setPort
    split
    · exact hc
    · exact ⟨hc.1.perform (.setPort port), hc.2⟩
  rcases host with _ | host <;> rcases port with _ | port
  · exact hc
  · exact hport hc port
  · exact hhost hc host
  · exact hport (hhost hc host) port

namespace Reactor

variable {σ : Type} {r r' : Reactor σ} {i : Nat}

/-- No missing address was reported, and every channel is right. -/
structure Addressed (r : Reactor σ) : Prop where
  told : ∀ m ∈ r.service.emitted.toList, m.event.Placed
  apt : ∀ {i c}, r.channel? i = some c → c.Apt

namespace Addressed

/-- What is done under a condition only. -/
theorem ite {r₁ r₂ : Reactor σ} {p : Prop} [Decidable p] (h₁ : r₁.Addressed) (h₂ : r₂.Addressed) :
    (if p then r₁ else r₂).Addressed := by
  split
  · exact h₁
  · exact h₂

/-! ## What has no part -/

theorem keep (h : r.Addressed)
    (hsame : (r'.service.emitted, r'.channels) = (r.service.emitted, r.channels)) : r'.Addressed := by
  simp only [Prod.mk.injEq] at hsame
  refine ⟨hsame.1 ▸ h.told, fun {i c} hc => h.apt (i := i) ?_⟩
  rwa [channel?, hsame.2] at hc

theorem updateChannel (h : r.Addressed) (i : Nat) {f : Channel → Channel}
    (hf : ∀ c, r.channel? i = some c → c.Apt → (f c).Apt) : (r.updateChannel i f).Addressed := by
  refine ⟨h.told, fun {j c'} hc' => ?_⟩
  by_cases hj : j = i
  · subst hj
    obtain ⟨c, hc, rfl⟩ := exists_of_updateChannel hc'
    exact hf c hc (h.apt hc)
  · rw [channel?_updateChannel_of_ne hj] at hc'
    exact h.apt hc'

theorem setState (h : r.Addressed) (i : Nat) (state : ChannelState) : (r.setState i state).Addressed :=
  (h.updateChannel i fun _ _ hc => by exact hc).keep rfl

theorem dropTimer (h : r.Addressed) (i : Nat) : (r.dropTimer i).Addressed := by
  unfold Reactor.dropTimer
  split
  · rename_i g _
    have hremoved : Addressed { r with service := (r.service.removeTimer g).2 } := h.keep rfl
    exact hremoved.updateChannel i fun _ _ hc => by exact hc
  · exact h

theorem idle (h : r.Addressed) (hidle : r.Idle r') : r'.Addressed :=
  h.keep (by rw [emitted_of_plays hidle.plays, hidle.channels])

theorem world (h : r.Addressed) (w : σ) : Addressed { r with world := w } := h.keep rfl

variable [Host σ]

theorem addTransport (h : r.Addressed) (i : Nat) (mask : ChannelMask) (d : Descriptor) :
    (r.addTransport i mask d).2.Addressed :=
  h.keep rfl

theorem emit (h : r.Addressed) {e : Event} (he : e.Placed) : (r.emit e).Addressed := by
  have hrecord : (r.record e).Addressed := by
    refine ⟨fun m hm => ?_, h.apt⟩
    rw [emitted_record, List.mem_append, List.mem_singleton] at hm
    rcases hm with hm | rfl
    · exact h.told m hm
    · exact he
  obtain ⟨s, w, hplays, heq⟩ := exists_emit r e
  rw [heq]
  exact hrecord.idle ⟨rfl, rfl, hplays⟩

theorem packet (h : r.Addressed) (i : Nat) (handle : Handle) (payload : Bytes) :
    (r.emit (.packet i handle payload)).Addressed :=
  h.emit (fun _ _ => by simp)

theorem armTimer (h : r.Addressed) (i : Nat) (delay : Duration) (task : Task) :
    (r.armTimer i delay task).Addressed := by
  let r₁ := (r.dropTimer i).now.2
  have hadded : Addressed { r₁ with
      service := (r₁.service.addTimer (r.dropTimer i).now.1 delay false task).2 } :=
    (h.dropTimer i).keep rfl
  exact hadded.updateChannel i fun _ _ hc => by exact hc

theorem scheduleReconnect (h : r.Addressed) (i : Nat) : (r.scheduleReconnect i).Addressed := by
  unfold Reactor.scheduleReconnect
  split
  · exact h.armTimer i _ _
  · exact h

theorem releaseSocket (h : r.Addressed) (i : Nat) : (r.releaseSocket i).Addressed := by
  unfold Reactor.releaseSocket
  split
  · exact .keep (h.updateChannel i fun _ _ hc => by exact hc) rfl
  · exact h

theorem applyKeepAlive (h : r.Addressed) (d : Descriptor) : (r.applyKeepAlive d).Addressed := by
  unfold Reactor.applyKeepAlive
  split
  · exact h.keep rfl
  · exact h

/-! ## Losing and closing -/

theorem loseTransport (h : r.Addressed) (id : TransportId) (status : Status) :
    (r.loseTransport id status).Addressed := by
  cases ht : r.transports.get? id with
  | none => rwa [loseTransport_of_none ht]
  | some t =>
    rw [loseTransport_of_some ht]
    let r₁ : Reactor σ := { (r.unwatch t.descriptor).shutdownSocket t.descriptor with
      service := r.service.updateConnection t.handle (·.close status) }
    let r₂ := r₁.emit (.connectionLost t.handle.channel status t.handle)
    have hclosed : r₁.Addressed := h.keep rfl
    have htold : r₂.Addressed := hclosed.emit fun _ _ => by simp
    have hremoved : ({ r₂ with transports := (r₂.transports.remove id).2 }.closeSocket
      t.descriptor).Addressed := htold.keep rfl
    have hparted : (r.parted id t status).Addressed :=
      hremoved.updateChannel t.handle.channel fun _ _ hc => by exact hc
    have hlapsed : ((r.parted id t status).lapsed t.handle.channel status).Addressed :=
      .setState (hparted.updateChannel t.handle.channel fun _ _ hc => by exact hc) _ _
    exact afterLoss_cases hparted (fun _ _ _ => hlapsed) fun _ _ _ _ => hlapsed.scheduleReconnect _

theorem unpacked (h : r.Addressed) (id : TransportId) (t : Transport) : (r.unpacked id t).Addressed := by
  refine List.foldlRecOn (motive := Addressed) _ _ (h.keep rfl) fun r' hr' e he => ?_
  obtain ⟨payload, -, rfl⟩ := List.mem_map.1 he
  exact hr'.packet _ _ payload

/-! ## Opening -/

theorem openFailed (h : r.Addressed) (i : Nat) {status : Status} (hstatus : status ≠ Status.noAddress) :
    (r.openFailed i status).Addressed := by
  have hgiven : (r.givenUp i status).Addressed :=
    .setState (((h.dropTimer i).releaseSocket i).updateChannel i fun _ _ hc => by exact hc) i _
  have htold := hgiven.emit (e := .connectResponse i status none) (Event.placed_connectResponse hstatus)
  exact openFailed_cases (fun _ => h) (fun _ _ _ => htold) fun _ _ _ => htold.scheduleReconnect i

theorem connected (h : r.Addressed) (i : Nat) (mask : ChannelMask) (d : Descriptor) :
    (r.connected i mask d).Addressed := by
  have hkept : (if mask.isTcp then (r.dropTimer i).applyKeepAlive d else r.dropTimer i).Addressed :=
    .ite ((h.dropTimer i).applyKeepAlive d) (h.dropTimer i)
  refine .emit (.setState ((hkept.addTransport i mask d).updateChannel i fun _ _ hc => by exact hc) i _) ?_
  exact Event.placed_connectResponse (by decide)

theorem begun (h : r.Addressed) (i : Nat) {mask : ChannelMask} (hvalid : mask.isValid = true) :
    (r.begun i mask).Addressed := by
  have hopening := (h.updateChannel i (f := ({ · with
    mask := mask, pendingOpen := true, lastStatus := Status.ok })) fun _ _ hc =>
      ⟨hc.1, ChannelMask.role_of_isValid hvalid⟩).setState i .opening
  exact .ite (hopening.armTimer i _ _) hopening

theorem announce (h : r.Addressed) (i : Nat) (k : Option Handle) :
    (r.emit (.connectResponse i Status.ok k)).Addressed :=
  h.emit (Event.placed_connectResponse (by decide))

theorem seek (h : r.Addressed) (hseek : Seek i r r') : r'.Addressed := by
  have hinquiring : (r.inquiring i).Addressed := h.updateChannel i fun _ _ hc =>
    ⟨hc.1.perform .begin, hc.2⟩
  cases hseek with
  | @retarget c host port e cache hc heq =>
    refine h.updateChannel i fun c' hc' _ => ?_
    obtain rfl := Option.some.inj (hc.symm.trans hc')
    exact heq ▸ (h.apt hc).retargeted host port
  | refresh hc =>
    exact (h.world _).updateChannel i fun _ _ hc' => by
      exact ⟨(h.apt hc).1.perform (.refresh r.options.lookupTtl r.now.1), hc'.2⟩
  | inquire hc hdirty heq => exact hinquiring.keep rfl
  | @unanswered c w hc hdirty heq =>
    exact ((hinquiring.world w).world _).updateChannel i fun c _ hc => by
      exact ⟨hc.1.perform (.complete c.cache.epoch (.error (.kind .other)) (Host.now w).1), hc.2⟩

omit [Host σ] in
/-- **No channel that should have an address is without one.** -/
theorem not_stranded (h : r.Addressed) {c : Channel} (hc : r.channel? i = some c) (hlocated : c.Located) :
    ¬ c.Stranded := by
  rintro ⟨hnone, hunbound⟩
  obtain ⟨hattained, hrole⟩ := h.apt hc
  rcases hlocated with hready | ⟨hserver, hbinds⟩
  · exact hattained.sound.ready hready (List.head?_eq_none_iff.1 hnone)
  · rcases hunbound with hclient | hunbound
    · simp [hclient, hserver] at hrole
    · simp [hunbound] at hbinds

variable (herrors : Host.ErrorsPositive σ)
include herrors

/-- So no open fails for that. -/
theorem status_ne_noAddress (h : r.Addressed) {status : Status} (hthwarted : r.Thwarted i status) :
    status ≠ Status.noAddress := by
  cases hthwarted with
  | stranded hc hlocated hstranded => exact absurd hstranded (h.not_stranded hc hlocated)
  | lookupFailed => decide
  | connectTimeout => decide
  | reported he => exact he.status_ne_noAddress herrors

/-! ## Chores -/

/-- **No chore makes the loop report a missing address.** -/
theorem chore {T : Terms} (h : r.Addressed) (hchore : Chore T i r r') : r'.Addressed := by
  cases hchore with
  | ask hask => exact h.world _
  | drop => exact h.dropTimer i
  | settle => exact h.updateChannel i fun _ _ hc => by exact hc
  | release => exact h.releaseSocket i
  | port port => exact h.updateChannel i fun _ _ hc => by exact hc
  | seek hseeks hseek => exact h.seek hseek
  | @answer a c hhears ha hc haccepts =>
    exact h.updateChannel _ fun _ _ hc' => by
      exact ⟨(h.apt (ha ▸ hc)).1.perform (.complete a.epoch a.answer a.time), hc'.2⟩
  | begin hopens hvalid hc hbare => exact h.begun i hvalid
  | fail hthwarted hopening => exact h.openFailed i (h.status_ne_noAddress herrors hthwarted)
  | connect hc hclient heq => exact (h.world _).connected i _ _
  | @connecting c target d w hc hclient heq hbare =>
    have hwatched : ({ r with world := w }.watchFor d (.channel i) .write).Addressed := h.keep rfl
    exact hwatched.updateChannel i fun _ _ hc => by exact hc
  | @finish c d w hc hclient hsocket heq =>
    have hunbound : ({ r with world := w }.unbound i d).Addressed :=
      .keep ((h.world w).updateChannel i fun _ _ hc => by exact hc) rfl
    exact hunbound.connected i _ d
  | @bind c address d w hc hserver heq hbare =>
    have hwatched : ({ r with world := w }.watchFor d (.channel i) .read).Addressed := h.keep rfl
    exact .setState (hwatched.updateChannel i fun _ _ hc => by exact hc) i _
  | accept hc htcp heq => exact (((h.world _).applyKeepAlive _).addTransport i _ _).announce i _
  | packet hrelays hpeer payload => exact h.packet _ _ payload
  | @greet c server peer d w hrelays hunknown heq payload =>
    have hadded := (h.world w).addTransport i c.mask d
    exact ((hadded.updateChannel i fun _ _ hc => by exact hc).announce i _).packet _ _ payload
  | read ht hi hok => exact h.unpacked _ _
  | broken ht hi hfailed => exact (h.unpacked _ _).loseTransport _ _
  | flush now id => exact h.idle (idle_flushTransport r now id)
  | lose ht hi status => exact h.loseTransport _ status
  | empty halone => exact .setState (h.updateChannel i fun _ _ hc => by exact hc) i _
  | closing => exact h.emit (Event.placed_connectResponse (by decide))
  | renew ht hc => exact h.keep rfl
  | script timer cancelled => exact h.idle ⟨rfl, rfl, Service.plays_runScript _ _⟩

theorem chores {T : Terms} (h : r.Addressed) (hchores : Chores T r r') : r'.Addressed :=
  hchores.keeps (P := Addressed) (fun _ hchore h => h.chore herrors hchore) h

/-! ## Handlers -/

theorem perform (h : r.Addressed) (c : Command) : (r.perform c).Addressed :=
  h.chores herrors (chores_perform (admits_any c))

theorem fire (h : r.Addressed) (e : Timer.Expired Task) : (r.fire e).Addressed :=
  keeps_fire (P := Addressed) (yields_any e) (fun i h => h.updateChannel i fun _ _ hc => by exact hc)
    (fun hchores h => h.chores herrors hchores) h

theorem act (h : r.Addressed) {a : Act} (ha : a.isTimer = false) : (r.act a).Addressed :=
  act_cases (T := .any) ha (fun _ => trivial) False.elim (h.idle (idle_waitTimeout r))
    (fun d => h.idle (idle_await r d)) (fun ready => h.idle (idle_resetInterrupter r ready)) (h.chores herrors)

theorem teardown (h : r.Addressed) : r.teardown.Addressed :=
  (h.chores herrors (chores_closed (T := .any) (fun _ => trivial) named_any)).keep rfl

end Addressed

variable [Host σ]

/-- **An open that waits learns that its name was looked up to nothing**, and nobody learns anything else. -/
theorem chronicle_resolved_of_empty {a : Resolution} {c : Channel} (hc : r.channel? a.channel = some c)
    (hwaits : c.pendingOpen = true) (haccepts : c.cache.accepts a.epoch = true)
    (hempty : a.answer = .ok []) :
    (r.resolved a).chronicle = r.chronicle ++ [.connectResponse a.channel Status.lookupFailed none] := by
  have hfailed : (c.cache.complete a.epoch a.answer a.time).state = .failed := by
    simp [ResolveCache.complete, haccepts, hempty]
  have htaken : r.resolved a = (r.answeredBy a c).openFailed a.channel Status.lookupFailed := by
    simp [resolved, hc, haccepts, hwaits, hfailed, answeredBy]
  have hc' : ∃ c', (r.answeredBy a c).channel? a.channel = some c' := by
    simp [answeredBy, hc]
  obtain ⟨c', hc'⟩ := hc'
  rw [htaken, chronicle_openFailed hc']
  rfl

end Reactor

namespace Course

variable {σ : Type} [Host σ] {x y : Course σ}

theorem Step.addressed (herrors : Host.ErrorsPositive σ) (h : x.Step y) (hx : x.reactor.Addressed) :
    y.reactor.Addressed := by
  cases h with
  | request now q => exact hx.idle ⟨rfl, rfl, Service.plays_perform _ now q⟩
  | dispatch max => exact hx.idle ⟨rfl, rfl, Service.plays_dispatch max _ _⟩
  | world w => exact hx.world w
  | answer a => exact hx.keep rfl
  | refresh hrunning => exact hx.idle (Reactor.idle_refreshOptions _)
  | act hrunning ha => exact hx.act herrors ha
  | command hrunning hc => exact (hx.idle (Reactor.idle_withCommands _ _)).perform herrors _
  | poll hrunning hdue => exact hx.keep rfl
  | fire hrunning hdue => exact hx.fire herrors _
  | stop hrunning hstopping hdue => exact hx.teardown herrors
  | start hrunning hdue callback endpoints =>
    refine ⟨?_, fun {i c} hc => ?_⟩
    · have hemitted : (x.service.start callback endpoints.length).emitted = x.service.emitted := by
        rw [Service.start_of_not_running hrunning]
      exact hemitted.symm ▸ hx.told
    · obtain ⟨e, rfl⟩ := Reactor.exists_endpoint_of_new hc
      exact Channel.apt_ofEndpoint e

theorem Reachable.addressed (herrors : Host.ErrorsPositive σ) (h : x.Reachable) : x.reactor.Addressed := by
  obtain ⟨o, w, hsteps⟩ := h
  induction hsteps with
  | refl =>
    exact ⟨by simp [new, Reactor.new, Service.ofOptions], by simp [Reactor.channel?, new, Reactor.new]⟩
  | tail _ hstep ih => exact hstep.addressed herrors ih

/-- **A cache that is ready has addresses, and a name is ready only with those of the last answer that was
taken in, less than the time to live ago.** So in no run is an open told that there is no address: every
channel's cache is one that such calls lead to, and an open whose name was looked up to nothing is told that
the lookup failed. The system numbers its errors from one up. -/
theorem never_without_address (herrors : Host.ErrorsPositive σ) (h : x.Reachable) :
    (∀ e ops, let c := ResolveCache.after e ops
      (c.state = .ready → c.addresses ≠ []) ∧
      (c.state = .inProgress ∨ c.state = .failed → c.addresses = []) ∧
      ∀ ttl now, c.named = true → (c.refresh ttl now).state = .ready →
        ∃ time, ResolveCache.ServedFrom e ops (c.refresh ttl now).addresses time ∧ now.since time < ttl) ∧
    (∀ i c, x.reactor.channel? i = some c → ∃ e ops, c.cache = ResolveCache.after e ops) ∧
    (∀ channel handle?, .connectResponse channel Status.noAddress handle? ∉ x.reactor.chronicle) ∧
    ∀ (a : Resolution) c, x.reactor.channel? a.channel = some c → c.pendingOpen = true →
      c.cache.accepts a.epoch = true → a.answer = .ok [] → (x.reactor.resolved a).chronicle =
        x.reactor.chronicle ++ [.connectResponse a.channel Status.lookupFailed none] := by
  have hx := h.addressed herrors
  refine ⟨fun e ops => ?_, fun i c hc => (hx.apt hc).1, fun channel handle? hmem => ?_, fun a c => ?_⟩
  · have hsound := ResolveCache.sound_after e ops
    exact ⟨hsound.ready, hsound.unknown, fun ttl now => ResolveCache.served_fresh e ops⟩
  · obtain ⟨m, hm, hevent⟩ := List.mem_map.1 hmem
    exact hx.told m hm channel handle? hevent
  · exact Reactor.chronicle_resolved_of_empty

open Simulation

theorem unreachable_pos (a : Address) : 0 < Isolated.unreachable a := by
  unfold Isolated.unreachable
  split
  · decide
  · split <;> decide
  · decide

theorem errorsPositive_isolated : Host.ErrorsPositive Isolated where
  connect stream port a w code heq := by
    have hcases : w.connect stream port a = .os OsError.addressInUse ∨
        w.connect stream port a = .os (Isolated.unreachable a.host) := ite_eq_or_eq _ _ _
    have hcode : w.connect stream port a = .os code := Except.error.inj heq
    rcases hcases with hsame | hsame
    · obtain rfl := IoError.os.inj (hsame.symm.trans hcode)
      decide
    · obtain rfl := IoError.os.inj (hsame.symm.trans hcode)
      exact unreachable_pos a.host
  connectError d w code heq := by simp [Host.connectError] at heq
  bindServer stream a w code heq := by
    simp only [Host.bindServer, Isolated.bind] at heq
    split at heq
    · obtain rfl := IoError.os.inj (Except.error.inj heq)
      exact unreachable_pos a.host
    · split at heq
      · obtain rfl := IoError.os.inj (Except.error.inj heq)
        decide
      · cases heq

/-- A client waits for the lookup of its name, and the answer that is taken in has no address. -/
theorem never_without_address_of_empty_answer : ∃ (x : Course Isolated) (c : Channel), x.Reachable ∧
    x.reactor.channel? 0 = some c ∧ c.pendingOpen = true ∧ c.cache.accepts 1 = true ∧
    (x.reactor.resolved ⟨0, 1, .ok [], ⟨0⟩⟩).chronicle =
      x.reactor.chronicle ++ [.connectResponse 0 Status.lookupFailed none] := by
  have hnew : (new (σ := Isolated) Options.standard .new).Reachable := ⟨_, _, .refl⟩
  have hstart := hnew.step (.start rfl rfl 0 [⟨"svc.test", 80⟩])
  have hasked := hstart.step (.request ⟨0⟩ (.openChannel 0 .tcpClient))
  have hwaits := hasked.step (.command (by rfl) (by rfl))
  refine ⟨_, _, hwaits, by rfl, by rfl, by rfl, ?_⟩
  exact (never_without_address errorsPositive_isolated hwaits).2.2.2 ⟨0, 1, .ok [], ⟨0⟩⟩ _ (by rfl)
    (by rfl) (by rfl) rfl

end Course

end NetReactor
