import NetReactor.Proofs.Reactor.Mail
import NetReactor.Proofs.Reactor.Rows

/-!
# What leaves the targets alone

Most of what the loop does concerns neither a channel's target, that is its endpoint and what is known
of its addresses, nor the lookups. **Callbacks and the application's requests queue commands, never the
answer to a lookup**; those come from the resolvers only. What a handler tells goes one way (`Serves`).
-/

namespace NetReactor

namespace Service

/-- Commands were queued, none of them an answer, and the options changed at most with their version;
whether the service runs did not change. -/
structure Posts (s s' : Service) : Prop where
  commands : ∃ more, s'.commands = s.commands ++ more ∧ ∀ c ∈ more, c.isRequest
  running : s'.running = s.running
  version : s.version ≤ s'.version
  options : s'.version = s.version → s'.options = s.options

theorem Posts.refl (s : Service) : s.Posts s := ⟨⟨[], by simp⟩, rfl, Nat.le_refl _, fun _ => rfl⟩

theorem Posts.trans {s s' s'' : Service} (h : s.Posts s') (h' : s'.Posts s'') : s.Posts s'' := by
  obtain ⟨⟨more, hmore, hrequest⟩, hrunning, hle, hsame⟩ := h
  obtain ⟨⟨more', hmore', hrequest'⟩, hrunning', hle', hsame'⟩ := h'
  refine ⟨⟨more ++ more', by rw [hmore', hmore, List.append_assoc], ?_⟩, hrunning'.trans hrunning,
    Nat.le_trans hle hle', fun heq => (hsame' (by omega)).trans (hsame (by omega))⟩
  intro c hc
  rcases List.mem_append.1 hc with hc | hc
  · exact hrequest c hc
  · exact hrequest' c hc

/-- What keeps the queue and the options and goes on running posts nothing. -/
theorem Posts.of_eq {s s' : Service} (h : (s'.commands, s'.running, s'.version, s'.options) =
    (s.commands, s.running, s.version, s.options)) : s.Posts s' := by
  simp only [Prod.mk.injEq] at h
  obtain ⟨hcommands, hrunning, hversion, hoptions⟩ := h
  exact ⟨⟨[], by simp [hcommands]⟩, hrunning, Nat.le_of_eq hversion.symm, fun _ => hoptions⟩

theorem posts_post (s : Service) {c : Command} (h : c.isRequest) : s.Posts (s.post c) := by
  refine ⟨⟨[c], rfl, ?_⟩, rfl, Nat.le_refl _, fun _ => rfl⟩
  intro c' hc'
  obtain rfl := List.mem_singleton.1 hc'
  exact h

/-- What is done under a condition only. -/
theorem Posts.ite {s s' : Service} {p : Prop} [Decidable p] (h : s.Posts s') :
    s.Posts (if p then s' else s) := by
  split
  · exact h
  · exact .refl s

/-! ## Requests -/

theorem posts_setOption (s : Service) (c : Change) : s.Posts (s.setOption c) := by
  unfold setOption
  split
  case h_6 =>
    split
    · refine ⟨⟨[], by simp [wake]⟩, rfl, Nat.le_succ _, fun heq => ?_⟩
      exact absurd heq (Nat.succ_ne_self _)
    · exact .refl s
  case h_1 => exact .of_eq rfl
  all_goals exact posts_post s rfl

theorem posts_cancelTimer (s : Service) (now : Instant) (h : Timer.Handle) :
    s.Posts (s.cancelTimer now h).2 := by
  unfold cancelTimer
  split
  · exact .of_eq rfl
  · exact .refl s

/-- **No request queues the answer to a lookup.** -/
theorem posts_perform (s : Service) (now : Instant) (q : Request) : s.Posts (s.perform now q).2 := by
  cases q with
  | openChannel channel mask => exact .ite (posts_post s rfl)
  | closeChannel channel => exact .ite (posts_post s rfl)
  | closeTransport h => exact .ite (posts_post s rfl)
  | reopen h => exact .ite (posts_post s rfl)
  | write h data => exact .ite (.of_eq rfl)
  | schedule delay again timer => exact .of_eq rfl
  | cancelTimer h => exact (posts_cancelTimer s now h).trans (.of_eq rfl)
  | removeTimer h => exact .of_eq rfl
  | setOption c => exact posts_setOption s c
  | stop => exact .ite (.of_eq rfl)

/-! ## Callbacks -/

variable {σ : Type} [Host σ]

theorem posts_runScript (script : Script σ) (s : Service) : s.Posts (runScript script s).1 := by
  induction script generalizing s with
  | done w => exact .refl s
  | call w q next ih => exact (posts_perform s _ q).trans (ih _ _ _)

theorem posts_deliver (callback : Nat) (e : Event) (s : Service) (w : σ) :
    s.Posts (deliver callback e s w).1 := by
  have hrecord : s.Posts { s with delivered := s.delivered.push (callback, e) } := .of_eq rfl
  exact hrecord.trans (posts_runScript _ _)

theorem posts_deliverAll (callback : Nat) (events : List Event) (s : Service) (w : σ) :
    s.Posts (deliverAll callback events s w).1 := by
  induction events generalizing s w with
  | nil => exact .refl s
  | cons e rest ih => exact (posts_deliver callback e s w).trans (ih _ _)

theorem posts_dispatch (max : Nat) (s : Service) (w : σ) : s.Posts (dispatch max s w).2.1 := by
  have hpop : s.Posts { s with events := (EventQueue.popBatch s.events max).2 } := .of_eq rfl
  simp only [dispatch]
  split
  · exact hpop.trans (posts_deliverAll _ _ _ _)
  · exact hpop

/-! ## Handlers -/

/-- What a handler does to the service: it posts, and all that it tells goes one way. -/
structure Serves (deferred : Bool) (s s' : Service) : Prop where
  posts : s.Posts s'
  mails : Mails deferred s s'

variable {deferred : Bool}

omit [Host σ] in
theorem Serves.of_eq {s s' : Service}
    (h : (s'.commands, s'.running, s'.version, s'.options, s'.mail, s'.callback) =
      (s.commands, s.running, s.version, s.options, s.mail, s.callback)) : Serves deferred s s' := by
  simp only [Prod.mk.injEq] at h
  obtain ⟨hcommands, hrunning, hversion, hoptions, hmail, hcallback⟩ := h
  exact ⟨.of_eq (by rw [hcommands, hrunning, hversion, hoptions]),
    .of_mail (fun hs => hcallback ▸ hs) hmail⟩

omit [Host σ] in
theorem Serves.refl (s : Service) : Serves deferred s s := .of_eq rfl

omit [Host σ] in
theorem Serves.trans {s s' s'' : Service} (h : Serves deferred s s') (h' : Serves deferred s' s'') :
    Serves deferred s s'' :=
  ⟨h.posts.trans h'.posts, h.mails.trans h'.mails⟩

omit [Host σ] in
theorem serves_perform (s : Service) (now : Instant) (q : Request) :
    Serves deferred s (s.perform now q).2 :=
  ⟨posts_perform s now q, mails_perform s now q⟩

theorem serves_runScript (script : Script σ) (s : Service) : Serves deferred s (runScript script s).1 :=
  ⟨posts_runScript script s, mails_runScript script s⟩

end Service

/-- Where a channel leads, and what is known of it. -/
def Channel.target (c : Channel) : Endpoint × ResolveCache := (c.endpoint, c.cache)

namespace Reactor

variable {σ : Type}

/-- What the loop does to the service, by its copy of the options. -/
abbrev Serves (r r' : Reactor σ) : Prop := Service.Serves r.options.deferEvents r.service r'.service

theorem Serves.trans {r r' r'' : Reactor σ} (h : r.Serves r') (h' : r'.Serves r'')
    (hsnapshot : (r'.options, r'.version) = (r.options, r.version)) : r.Serves r'' := by
  have hoptions : r'.options = r.options := congrArg Prod.fst hsnapshot
  rw [Serves, hoptions] at h'
  exact Service.Serves.trans h h'

/-- Whether a channel's open waits for its target. -/
def waits (r : Reactor σ) (i : Nat) : Bool := (r.channel? i).any (·.pendingOpen)

/-- Targets, lookups and the loop's copy of the options are as before, no open begins to wait, and no
answer was queued. -/
structure Quiet (r r' : Reactor σ) : Prop where
  targets : r'.channels.map Channel.target = r.channels.map Channel.target
  waits : ∀ i, r'.waits i = true → r.waits i = true
  lookups : r'.lookups = r.lookups
  snapshot : (r'.options, r'.version) = (r.options, r.version)
  serves : r.Serves r'

theorem Quiet.posts {r r' : Reactor σ} (h : r.Quiet r') : r.service.Posts r'.service := h.serves.posts

theorem Quiet.refl (r : Reactor σ) : r.Quiet r := ⟨rfl, fun _ h => h, rfl, rfl, .refl _⟩

theorem Quiet.trans {r r' r'' : Reactor σ} (h : r.Quiet r') (h' : r'.Quiet r'') : r.Quiet r'' :=
  ⟨h'.targets.trans h.targets, fun i hi => h.waits i (h'.waits i hi), h'.lookups.trans h.lookups,
    h'.snapshot.trans h.snapshot, h.serves.trans h'.serves h.snapshot⟩

/-- What keeps the channels and serves. -/
theorem Quiet.of_serves {r r' : Reactor σ} (hchannels : r'.channels = r.channels)
    (hrest : (r'.lookups, r'.options, r'.version) = (r.lookups, r.options, r.version))
    (hserves : r.Serves r') : r.Quiet r' := by
  simp only [Prod.mk.injEq] at hrest
  obtain ⟨hlookups, hoptions, hversion⟩ := hrest
  refine ⟨by rw [hchannels], fun i hi => ?_, hlookups, by rw [hoptions, hversion], hserves⟩
  rwa [Reactor.waits, channel?, hchannels] at hi

theorem Quiet.ite {r r' r'' : Reactor σ} {p : Prop} [Decidable p] (h' : r.Quiet r')
    (h'' : r.Quiet r'') : r.Quiet (if p then r' else r'') := by
  split
  · exact h'
  · exact h''

/-! ## Access -/

theorem quiet_world (r : Reactor σ) (w : σ) : r.Quiet { r with world := w } :=
  .of_serves rfl rfl (.refl _)

theorem quiet_transports (r : Reactor σ) (transports : Arena Transport) :
    r.Quiet { r with transports := transports } :=
  .of_serves rfl rfl (.refl _)

theorem quiet_service (r : Reactor σ) {s : Service}
    (h : Service.Serves r.options.deferEvents r.service s) : r.Quiet { r with service := s } :=
  .of_serves rfl rfl h

theorem map_target_modify (channels : List Channel) (i : Nat) {f : Channel → Channel}
    (h : ∀ c, (f c).target = c.target) :
    (channels.modify i f).map Channel.target = channels.map Channel.target := by
  refine List.ext_getElem? fun j => ?_
  simp only [List.getElem?_map, List.getElem?_modify]
  cases channels[j]? with
  | none => rfl
  | some c =>
    by_cases hij : i = j
    · simp [hij, h]
    · simp [hij]

theorem waits_modify (channels : List Channel) (i : Nat) {f : Channel → Channel}
    (h : ∀ c, (f c).pendingOpen = true → c.pendingOpen = true) (j : Nat)
    (hj : (channels.modify i f)[j]?.any (·.pendingOpen) = true) :
    channels[j]?.any (·.pendingOpen) = true := by
  rw [List.getElem?_modify] at hj
  cases hc : channels[j]? with
  | none => simp [hc] at hj
  | some c =>
    by_cases hij : i = j
    · exact h c (by simpa [hc, hij] using hj)
    · simpa [hc, hij] using hj

theorem quiet_updateChannel (r : Reactor σ) (i : Nat) {f : Channel → Channel}
    (h : ∀ c, (f c).target = c.target)
    (hwaits : ∀ c, (f c).pendingOpen = true → c.pendingOpen = true) :
    r.Quiet (r.updateChannel i f) :=
  ⟨map_target_modify r.channels i h, waits_modify r.channels i hwaits, rfl, rfl, .refl _⟩

theorem quiet_setState (r : Reactor σ) (i : Nat) (state : ChannelState) :
    r.Quiet (r.setState i state) :=
  ⟨map_target_modify r.channels i fun _ => rfl, waits_modify r.channels i fun _ hc => hc, rfl, rfl,
    .of_eq rfl⟩

theorem quiet_watchFor (r : Reactor σ) (d : Descriptor) (owner : Owner) (i : Interest) :
    r.Quiet (r.watchFor d owner i) :=
  .of_serves rfl rfl (.refl _)

theorem quiet_unwatch (r : Reactor σ) (d : Descriptor) : r.Quiet (r.unwatch d) :=
  .of_serves rfl rfl (.refl _)

/-! ## Without the host -/

theorem quiet_dropTimer (r : Reactor σ) (i : Nat) : r.Quiet (r.dropTimer i) := by
  unfold dropTimer
  split
  · rename_i h _
    have hremove : r.Quiet { r with service := (r.service.removeTimer h).2 } :=
      quiet_service r (.of_eq rfl)
    exact hremove.trans (quiet_updateChannel _ i (fun _ => by rfl) fun _ => by simp)
  · exact .refl r

/-- A timer is out of its slot. -/
theorem quiet_taken (r : Reactor σ) (i : Nat) : r.Quiet (r.updateChannel i ({ · with timer := none })) :=
  quiet_updateChannel r i (fun _ => rfl) fun _ hc => hc

theorem quiet_connecting (r : Reactor σ) (i : Nat) (d : Descriptor) : r.Quiet (r.connecting i d) :=
  (quiet_watchFor r d _ _).trans (quiet_updateChannel _ i (fun _ => by rfl) fun _ => by simp)

theorem quiet_unbound (r : Reactor σ) (i : Nat) (d : Descriptor) : r.Quiet (r.unbound i d) :=
  (quiet_updateChannel r i (fun _ => by rfl) fun _ => by simp).trans (quiet_unwatch _ d)

theorem quiet_bound (r : Reactor σ) (i : Nat) (d : Descriptor) : r.Quiet (r.bound i d) :=
  ((quiet_watchFor r d _ _).trans (quiet_updateChannel _ i (fun _ => by rfl) fun _ => by simp)).trans
    (quiet_setState _ i .opened)

theorem quiet_resetInterrupter (r : Reactor σ) (ready : List (Readiness Owner)) :
    r.Quiet (r.resetInterrupter ready) :=
  .ite (quiet_service r (.of_eq rfl)) (.refl r)

variable [Host σ]

/-! ## Timers of channels -/

theorem quiet_now (r : Reactor σ) : r.Quiet r.now.2 := quiet_world r _

theorem quiet_armTimer (r : Reactor σ) (i : Nat) (delay : Duration) (task : Task) :
    r.Quiet (r.armTimer i delay task) := by
  have hnow : r.Quiet (r.dropTimer i).now.2 := (quiet_dropTimer r i).trans (quiet_now _)
  refine (hnow.trans (quiet_service _ ?_)).trans (quiet_updateChannel _ i (fun _ => by rfl) fun _ => by simp)
  exact .of_eq rfl

theorem quiet_scheduleReconnect (r : Reactor σ) (i : Nat) : r.Quiet (r.scheduleReconnect i) := by
  unfold scheduleReconnect
  split
  · exact quiet_armTimer r i _ _
  · exact .refl r

/-! ## Sockets and events -/

theorem quiet_closeSocket (r : Reactor σ) (d : Descriptor) : r.Quiet (r.closeSocket d) :=
  quiet_world r _

theorem quiet_shutdownSocket (r : Reactor σ) (d : Descriptor) : r.Quiet (r.shutdownSocket d) :=
  quiet_world r _

theorem posts_emit (r : Reactor σ) (e : Event) : r.service.Posts (r.emit e).service := by
  have hrecord : r.service.Posts (r.record e).service := .of_eq rfl
  simp only [emit]
  split
  · exact .of_eq rfl
  · split
    · exact hrecord.trans (Service.posts_deliver _ _ _ _)
    · exact hrecord

/-- **An event may set a callback to work, which is quiet all the same.** -/
theorem quiet_emit (r : Reactor σ) (e : Event) : r.Quiet (r.emit e) := by
  have hrest : (r.emit e).channels = r.channels ∧
      ((r.emit e).lookups, (r.emit e).options, (r.emit e).version) =
        (r.lookups, r.options, r.version) := by
    simp only [emit]
    split
    · exact ⟨rfl, rfl⟩
    · split <;> exact ⟨rfl, rfl⟩
  exact .of_serves hrest.1 hrest.2 ⟨posts_emit r e, mails_emit r e⟩

theorem quiet_emitAll (r : Reactor σ) (events : List Event) : r.Quiet (r.emitAll events) :=
  List.foldlRecOn events Reactor.emit (.refl r) fun r' hr e _ => hr.trans (quiet_emit r' e)

/-! ## Transports -/

theorem quiet_addTransport (r : Reactor σ) (i : Nat) (mask : ChannelMask) (d : Descriptor) :
    r.Quiet (r.addTransport i mask d).2 :=
  .of_serves rfl rfl (.of_eq rfl)

theorem quiet_afterLoss (r : Reactor σ) (i : Nat) (status : Status) :
    r.Quiet (r.afterLoss i status) := by
  have hlapsed : r.Quiet (r.lapsed i status) :=
    (quiet_updateChannel r i (fun _ => by rfl) fun _ => by simp).trans (quiet_setState _ i .closed)
  exact afterLoss_cases (.refl r) (fun _ _ _ => hlapsed)
    fun _ _ _ _ => hlapsed.trans (quiet_scheduleReconnect _ i)

theorem quiet_loseTransport (r : Reactor σ) (id : TransportId) (status : Status) :
    r.Quiet (r.loseTransport id status) := by
  unfold loseTransport
  split
  · exact .refl r
  · refine .trans ?_ (quiet_afterLoss _ _ status)
    refine .trans ?_ (quiet_updateChannel _ _ (fun _ => by rfl) fun _ => by simp)
    refine .trans ?_ (quiet_closeSocket _ _)
    refine .trans ?_ (quiet_transports _ _)
    refine .trans ?_ (quiet_emit _ _)
    refine .trans ?_ (quiet_service _ (.of_eq rfl))
    exact (quiet_unwatch r _).trans (quiet_shutdownSocket _ _)

theorem quiet_flushTransport (r : Reactor σ) (now : Instant) (id : TransportId) :
    r.Quiet (r.flushTransport now id).2 := by
  unfold flushTransport
  split
  · exact .refl r
  · split
    · exact .refl r
    · exact .of_serves rfl rfl (.of_eq rfl)

theorem quiet_unpacked (r : Reactor σ) (id : TransportId) (t : Transport) : r.Quiet (r.unpacked id t) := by
  have hreceived : r.Quiet (r.received id t) := .of_serves rfl rfl (.refl _)
  exact hreceived.trans (quiet_emitAll _ _)

/-! ## Channels -/

theorem quiet_releaseSocket (r : Reactor σ) (i : Nat) : r.Quiet (r.releaseSocket i) := by
  unfold releaseSocket
  split
  · refine .trans ?_ (quiet_closeSocket _ _)
    exact (quiet_updateChannel r i (fun _ => by rfl) fun _ => by simp).trans (quiet_unwatch _ _)
  · exact .refl r

theorem quiet_openFailed (r : Reactor σ) (i : Nat) (status : Status) :
    r.Quiet (r.openFailed i status) := by
  have hclosed : r.Quiet (r.givenUp i status) :=
    (((quiet_dropTimer r i).trans (quiet_releaseSocket _ i)).trans
      (quiet_updateChannel _ i (fun _ => by rfl) fun _ => by simp)).trans (quiet_setState _ i _)
  have htold := hclosed.trans (quiet_emit _ (.connectResponse i status none))
  exact openFailed_cases (fun _ => .refl r) (fun _ _ _ => htold)
    fun _ _ _ => htold.trans (quiet_scheduleReconnect _ i)

theorem quiet_applyKeepAlive (r : Reactor σ) (d : Descriptor) : r.Quiet (r.applyKeepAlive d) := by
  unfold applyKeepAlive
  split
  · exact quiet_world r _
  · exact .refl r

theorem quiet_connected (r : Reactor σ) (i : Nat) (mask : ChannelMask) (d : Descriptor) :
    r.Quiet (r.connected i mask d) := by
  unfold connected
  refine .trans ?_ (quiet_emit _ _)
  refine .trans ?_ (quiet_setState _ _ _)
  refine .trans ?_ (quiet_updateChannel _ _ (fun _ => by rfl) fun _ => by simp)
  refine .trans (.trans (quiet_dropTimer r i) ?_) (quiet_addTransport _ i mask d)
  exact .ite (quiet_applyKeepAlive _ d) (.refl _)

/-! ## Serving -/

theorem quiet_accepted (r : Reactor σ) (i : Nat) (mask : ChannelMask) (d : Descriptor) :
    r.Quiet (r.accepted i mask d) :=
  .trans (.trans (quiet_applyKeepAlive r d) (quiet_addTransport _ i mask d)) (quiet_emit _ _)

theorem quiet_introduced (r : Reactor σ) (i : Nat) (mask : ChannelMask) (d : Descriptor)
    (peer : SocketAddress) : r.Quiet (r.introduced i mask d peer) :=
  ((quiet_addTransport r i mask d).trans
    (quiet_updateChannel _ i (fun _ => by rfl) fun _ => by simp)).trans (quiet_emit _ _)

/-! ## Turns -/

theorem quiet_waitTimeout (r : Reactor σ) : r.Quiet r.waitTimeout.2 :=
  (quiet_now r).trans (quiet_service _ (.of_eq rfl))

theorem quiet_await (r : Reactor σ) (d : Duration) : r.Quiet (r.await d).2 := quiet_world r _

/-! ## Chores -/

variable {T : Terms} {r r' : Reactor σ} {i : Nat}

/-- An answer to a lookup is taken in. -/
def Hears (i : Nat) (r r' : Reactor σ) : Prop :=
  ∃ a c, a.channel = i ∧ r.channel? i = some c ∧ c.cache.accepts a.epoch = true ∧ r' = r.answeredBy a c

/-- **A chore that leaves the targets alone is quiet.** -/
theorem Chore.quiet (h : Chore T i r r') : r.Quiet r' ∨ T.seeks ∧ Seek i r r' ∨ T.hears ∧ Hears i r r' ∨
    ∃ mask, T.opens mask ∧ r' = r.begun i mask := by
  have hasked : ∀ w, r.Quiet { r with world := w } := quiet_world r
  cases h with
  | seek hseeks h => exact .inr (.inl ⟨hseeks, h⟩)
  | answer hhears ha hc haccepts => exact .inr (.inr (.inl ⟨hhears, _, _, ha, hc, haccepts, rfl⟩))
  | begin hopens hvalid hc hbare => exact .inr (.inr (.inr ⟨_, hopens, rfl⟩))
  | ask h => exact .inl (hasked _)
  | drop => exact .inl (quiet_dropTimer r i)
  | settle => exact .inl (quiet_updateChannel r i (fun _ => by rfl) fun _ => by simp)
  | release => exact .inl (quiet_releaseSocket r i)
  | port port => exact .inl (quiet_updateChannel r i (fun _ => by rfl) fun _ => by simp)
  | fail h hopening => exact .inl (quiet_openFailed r i _)
  | connect hc hclient h => exact .inl ((hasked _).trans (quiet_connected _ i _ _))
  | connecting hc hclient h hbare => exact .inl ((hasked _).trans (quiet_connecting _ i _))
  | finish hc hclient hsocket h =>
    exact .inl (((hasked _).trans (quiet_unbound _ i _)).trans (quiet_connected _ i _ _))
  | bind hc hserver h hbare => exact .inl ((hasked _).trans (quiet_bound _ i _))
  | accept hc htcp h => exact .inl ((hasked _).trans (quiet_accepted _ i _ _))
  | packet hrelays hpeer payload => exact .inl (quiet_emit r _)
  | greet hrelays hunknown h payload =>
    exact .inl (((hasked _).trans (quiet_introduced _ i _ _ _)).trans (quiet_emit _ _))
  | read ht hi hok => exact .inl (quiet_unpacked r _ _)
  | broken ht hi hfailed => exact .inl ((quiet_unpacked r _ _).trans (quiet_loseTransport _ _ _))
  | flush now id => exact .inl (quiet_flushTransport r now id)
  | lose ht hi status => exact .inl (quiet_loseTransport r _ status)
  | empty halone =>
    refine .inl (.trans ?_ (quiet_setState _ i .closed))
    exact quiet_updateChannel r i (fun _ => by rfl) fun _ => by simp
  | closing => exact .inl (quiet_emit r _)
  | renew ht hc => exact .inl ((quiet_transports r _).trans (quiet_watchFor _ _ _ _))
  | script timer cancelled =>
    exact .inl (.of_serves rfl rfl (Service.serves_runScript (Application.onTimer timer cancelled r.world) _))

theorem Chores.quiet (h : Chores .quiet r r') : r.Quiet r' :=
  h.keeps (P := r.Quiet) (fun _ hchore hr => hr.trans <| by
    obtain hquiet | ⟨hseeks, -⟩ | ⟨hhears, -⟩ | ⟨mask, hopens, -⟩ := hchore.quiet
    · exact hquiet
    · exact hseeks.elim
    · exact hhears.elim
    · exact hopens.elim) (.refl r)

omit [Host σ] in
theorem named_quiet : Terms.quiet.Named r := .inr ⟨id, fun _ => trivial⟩

/-- **Connecting and binding do not touch the target they use.** -/
theorem quiet_establish (hlocated : ∀ c, r.channel? i = some c → c.Located) : r.Quiet (r.establish i) :=
  (chores_establish trivial hlocated False.elim).quiet

/-- **A teardown closes quietly, and then empties timers and queue at once.** -/
theorem quiet_teardown (r : Reactor σ) : ∃ r' : Reactor σ, r.Quiet r' ∧
    r.teardown = ({ r' with service := { r'.service with
      timers := r'.service.timers.clear, commands := [], running := false } }).unwatch
        wakeDescriptor :=
  ⟨r.closed, (chores_closed (fun _ => trivial) named_quiet).quiet, rfl⟩

end Reactor

end NetReactor
