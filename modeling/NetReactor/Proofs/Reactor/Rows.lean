import NetReactor.Proofs.Reactor.Chores

/-!
# Every handler is a row of chores

Each handler is taken apart here once, from the closing of a transport up to a command (`chores_perform`), a
timer that fires (`chores_fire`), a socket that shows something (`chores_serveChannel`) and the end of a run
(`chores_closed`). **What is said of chores is said of every handler**: of the descriptors it watches, the
timers it arms, the queues, the lists of peers, the addresses and the events. When a handler changes, its
row changes with it, and those accounts stand.

On terms from rest a row has to show, where an open begins or goes on, that the channel is bare. A handler
asks for that where it starts, a command by `Terms.Admits` and a timer by `Terms.Yields`.
-/

namespace NetReactor.Reactor

variable {σ : Type} [Host σ] {T : Terms} {r r' : Reactor σ} {i : Nat}

/-! ## Transports -/

variable {id : TransportId} {mask : ChannelMask} {c : Channel} {d : Descriptor}

theorem chores_loseTransport (hown : ∀ t, r.transports.get? id = some t → T.concerns t.handle.channel)
    (status : Status) : Chores T r (r.loseTransport id status) := by
  cases ht : r.transports.get? id with
  | none =>
    rw [loseTransport_of_none ht]
    exact .refl r
  | some t => exact .single (hown t ht) (.lose ht rfl status)

theorem chores_closeTransport (hown : ∀ t, r.transports.get? id = some t → T.concerns t.handle.channel) :
    Chores T r (r.closeTransport id) := by
  cases ht : r.transports.get? id with
  | none =>
    rw [closeTransport_of_none ht]
    exact .refl r
  | some t =>
    have hi := hown t ht
    have hnow : Chores T r r.now.2 := .single hi (.ask (.now r.world))
    have hflushed := hnow.tail hi (.flush r.now.1 id)
    refine .ite (hflushed.trans (chores_loseTransport (fun t' ht' => hown t' ?_) _)) (.refl r)
    rwa [(idle_flushTransport _ _ id).transports] at ht'

/-- The transports of the channels that are concerned may be closed one after the other. -/
theorem chores_closeTransports {ids : List TransportId}
    (hown : ∀ id ∈ ids, ∀ t, r.transports.get? id = some t → T.concerns t.handle.channel) :
    Chores T r (ids.foldl closeTransport r) := by
  induction ids generalizing r with
  | nil => exact .refl r
  | cons id rest ih =>
    refine (chores_closeTransport (hown id List.mem_cons_self)).trans (ih fun id' hid' t ht => ?_)
    rw [transports_closeTransport, Arena.get?_remove] at ht
    split at ht
    · cases ht
    · exact hown id' (List.mem_cons_of_mem id hid') t ht

theorem chores_readTransport (hown : ∀ t, r.transports.get? id = some t → T.concerns t.handle.channel) :
    Chores T r (r.readTransport id) := by
  cases ht : r.transports.get? id with
  | none =>
    simp only [readTransport, ht]
    exact .refl r
  | some t =>
    rw [readTransport_of_some ht]
    split
    · rename_i e hfailed
      exact .single (hown t ht) (.broken ht rfl hfailed)
    · rename_i hok
      exact .single (hown t ht) (.read ht rfl hok)

section
variable (hall : ∀ j, T.concerns j)
include hall

theorem chores_flushTransports (r : Reactor σ) : Chores T r r.flushTransports :=
  flushTransports_ind (P := Chores T r) (.single (hall 0) (.ask (.now r.world)))
    (fun now id hr => hr.tail (hall 0) (.flush now id))
    fun _ status hr => hr.trans (chores_loseTransport (fun _ _ => hall _) status)

theorem chores_updateInterests (r : Reactor σ) : Chores T r r.updateInterests :=
  chores_foldl (fun r _ => updateInterest_cases (motive := Chores T r) (.refl r) fun _ _ ht hc =>
    .single (hall 0) (.renew ht hc)) _ r

end

/-! ## Addresses -/

omit [Host σ] in
theorem located_of_binds (hc : r.channel? i = some c)
    (hbinds : (c.mask.isServer && c.endpoint.bindAddress?.isSome) = true) :
    ∀ c', r.channel? i = some c' → c'.Located := by
  intro c' hc'
  obtain rfl := Option.some.inj (hc.symm.trans hc')
  exact .inr (by simpa using hbinds)

/-- The channel's cache is what the refresh has made of it. -/
theorem cache_refreshed {c' : Channel} (hc' : (r.refreshed i c).channel? i = some c') :
    c'.cache = c.cache.refresh r.options.lookupTtl r.now.1 := by
  obtain ⟨c₀, -, rfl⟩ := exists_of_updateChannel hc'
  rfl

theorem located_refreshed (hready : (c.cache.refresh r.options.lookupTtl r.now.1).state = .ready) :
    ∀ c', (r.refreshed i c).channel? i = some c' → c'.Located :=
  fun _ hc' => .inl (cache_refreshed hc' ▸ hready)

omit [Host σ] in
theorem located_answeredBy {a : Resolution}
    (hready : (c.cache.complete a.epoch a.answer a.time).state = .ready) :
    ∀ c', (r.answeredBy a c).channel? a.channel = some c' → c'.Located := by
  intro c' hc'
  obtain ⟨c₀, -, rfl⟩ := exists_of_updateChannel hc'
  exact .inl hready

/-! ## Closing -/

section
variable (hi : T.concerns i)
include hi

theorem chores_silenced (r : Reactor σ) : Chores T r (r.silenced i) := by
  have hsettled : Chores T r ((r.dropTimer i).updateChannel i ({ · with pendingOpen := false })) :=
    (Chores.single hi .drop).tail hi .settle
  refine .tail ?_ hi .release
  split
  · exact hsettled.tail hi (.ask (.shutdown _ _))
  · exact hsettled

theorem chores_shutdownChannel (hnamed : T.Named r) : Chores T r (r.shutdownChannel i) := by
  have hown : ∀ id ∈ (r.silenced i).transportsOf i, ∀ t, (r.silenced i).transports.get? id = some t →
      T.concerns t.handle.channel := by
    intro id hid t ht
    rcases hnamed with hfits | ⟨-, hall⟩
    · obtain ⟨t', ht', rfl⟩ := channel_of_mem_transportsOf (by rwa [transports_silenced]) hid
      exact Option.some.inj (ht'.symm.trans ht) ▸ hi
    · exact hall _
  have hclosed := (chores_silenced hi r).trans (chores_closeTransports hown)
  have halone : T.rests → (r.shutdownChannel i).Alone i := fun hrests =>
    alone_shutdownChannel (hnamed.resolve_right fun h => h.1 hrests)
  rw [shutdownChannel_eq] at halone ⊢
  exact hclosed.tail hi (.empty halone)

theorem chores_closeChannel (hnamed : T.Named r) : Chores T r (r.closeChannel i) := by
  have hshut := chores_shutdownChannel hi hnamed
  unfold closeChannel
  split
  · exact .refl r
  · exact .ite (hshut.tail hi .closing) hshut

/-! ## Connecting and binding -/

theorem chores_startConnect (hclient : ∀ c, r.channel? i = some c → c.mask.isClient = true)
    (hlocated : ∀ c, r.channel? i = some c → c.Located) (hbare : T.rests → r.Bare i .opening) :
    Chores T r (r.startConnect i) := by
  have hopening : T.rests → ∀ c, r.channel? i = some c → c.state = .opening := fun hrests c hc =>
    ((hbare hrests).channel c hc).1
  refine startConnect_cases (fun _ => .refl r) (fun c hc hnone => ?_)
    (fun c _ _ _ hc _ heq => .single hi (.connect hc (hclient c hc) heq))
    (fun c _ _ _ hc _ heq => .single hi (.connecting hc (hclient c hc) heq hbare))
    fun _ _ _ w _ _ heq => ?_
  · have hstranded : c.Stranded := ⟨hnone, .inl (hclient c hc)⟩
    exact .single hi (.fail (.stranded hc (hlocated c hc) hstranded) hopening)
  · have hasked : Chores T r { r with world := w } := .single hi (.ask (.refused heq))
    exact hasked.tail hi (.fail (.reported (.connect heq)) hopening)

theorem chores_finishConnect (hclient : ∀ c, r.channel? i = some c → c.mask.isClient = true)
    (hopening : ∀ c, r.channel? i = some c → c.state = .opening) : Chores T r (r.finishConnect i) := by
  have hasked : ∀ {d : Descriptor} {answer w}, Host.connectError d r.world = (answer, w) →
      Chores T r { r with world := w } := fun heq =>
    .single hi (.ask ((Host.Ask.connectError _ r.world).of_eq heq))
  exact finishConnect_cases (fun _ => .refl r)
    (fun _ _ _ _ _ _ heq => (hasked heq).tail hi (.fail (.reported (.connectError heq)) fun _ => hopening))
    (fun _ _ _ _ _ heq _ => hasked heq)
    fun c _ _ hc hsocket heq _ => .single hi (.finish hc (hclient c hc) hsocket heq)

theorem chores_startServer (hserver : ∀ c, r.channel? i = some c → c.mask.isClient = false)
    (hlocated : ∀ c, r.channel? i = some c → c.Located) (hbare : T.rests → r.Bare i .opening) :
    Chores T r (r.startServer i) := by
  have hopening : T.rests → ∀ c, r.channel? i = some c → c.state = .opening := fun hrests c hc =>
    ((hbare hrests).channel c hc).1
  refine startServer_cases (fun _ => .refl r) (fun c hc hnone => ?_) (fun _ _ _ w _ heq => ?_)
    fun c _ _ _ hc heq => .single hi (.bind hc (hserver c hc) heq hbare)
  · obtain ⟨hbind, hhead⟩ := Option.or_eq_none_iff.1 hnone
    exact .single hi (.fail (.stranded hc (hlocated c hc) ⟨hhead, .inr hbind⟩) hopening)
  · have hasked : Chores T r { r with world := w } := .single hi (.ask (.unbound heq))
    exact hasked.tail hi (.fail (.reported (.bindServer heq)) hopening)

/-- **A channel that has an address connects or binds.** -/
theorem chores_establish (hlocated : ∀ c, r.channel? i = some c → c.Located)
    (hbare : T.rests → r.Bare i .opening) : Chores T r (r.establish i) := by
  unfold establish
  split
  · rename_i hclient
    exact chores_startConnect hi (fun c hc => by simpa [hc] using hclient) hlocated hbare
  · rename_i hserver
    exact chores_startServer hi (fun c hc => by simpa [hc] using hserver) hlocated hbare

/-! ## Opening -/

theorem chores_startLookup (hseeks : T.seeks)
    (hdirty : ∀ c, r.channel? i = some c → c.cache.state = .dirty)
    (hopening : T.rests → ∀ c, r.channel? i = some c → c.state = .opening) :
    Chores T r (r.startLookup i) := by
  refine startLookup_cases (fun _ => .refl r)
    (fun c _ hc heq => .single hi (.seek hseeks (.inquire hc (hdirty c hc) heq))) fun c w hc heq => ?_
  have hunanswered : Chores T r ({ r.inquiring i with world := w }.unanswered i) :=
    .single hi (.seek hseeks (.unanswered hc (hdirty c hc) heq))
  refine hunanswered.tail hi (.fail .lookupFailed fun hrests c' hc' => ?_)
  obtain ⟨c₁, hc₁, rfl⟩ := exists_of_updateChannel hc'
  obtain ⟨c₀, hc₀, rfl⟩ := exists_of_updateChannel hc₁
  exact hopening hrests c₀ hc₀

theorem chores_onward (hlocated : ∀ c, r.channel? i = some c → c.Located)
    (hbare : T.rests → r.Bare i .opening) : Chores T r (r.onward i) := by
  have hsettled : Chores T r (r.updateChannel i ({ · with pendingOpen := false })) := .single hi .settle
  refine hsettled.trans (chores_establish hi (fun c' hc' => ?_) fun hrests => ?_)
  · obtain ⟨c, hc, rfl⟩ := exists_of_updateChannel hc'
    exact hlocated c hc
  · exact (hbare hrests).updateChannel fun _ hstate hsocket => ⟨hstate, hsocket⟩

/-- **An open that waits goes on**, if the channel is bare. -/
theorem chores_continueOpen (hseeks : T.seeks)
    (hwaits : T.rests → ∀ c, r.channel? i = some c → c.pendingOpen = true → r.Bare i .opening) :
    Chores T r (r.continueOpen i) := by
  have hrefreshed : ∀ c, r.channel? i = some c → Chores T r (r.refreshed i c) := fun c hc =>
    .single hi (.seek hseeks (.refresh hc))
  have hbare : ∀ c, r.channel? i = some c → c.pendingOpen = true → T.rests →
      (r.refreshed i c).Bare i .opening := by
    intro c hc hpending hrests
    have hnow : r.now.2.Bare i .opening := (hwaits hrests c hc hpending).of_eq rfl rfl
    exact hnow.updateChannel fun _ hstate hsocket => ⟨hstate, hsocket⟩
  have hopening : ∀ c, r.channel? i = some c → c.pendingOpen = true → T.rests →
      ∀ c', (r.refreshed i c).channel? i = some c' → c'.state = .opening :=
    fun c hc hpending hrests c' hc' => ((hbare c hc hpending hrests).channel c' hc').1
  refine continueOpen_cases (fun _ => .refl r) (fun c hc hpending hbinds => ?_)
    (fun c hc hpending hready => ?_) (fun c hc hpending hdirty => ?_) (fun c hc _ _ => hrefreshed c hc)
    fun c hc hpending _ => (hrefreshed c hc).tail hi (.fail .lookupFailed (hopening c hc hpending))
  · exact chores_onward hi (located_of_binds hc hbinds) fun hrests => hwaits hrests c hc hpending
  · exact (hrefreshed c hc).trans (chores_onward hi (located_refreshed hready) (hbare c hc hpending))
  · exact (hrefreshed c hc).trans
      (chores_startLookup hi hseeks (fun c' hc' => cache_refreshed hc' ▸ hdirty) (hopening c hc hpending))

theorem chores_cleared (hnamed : T.Named r) (c : Channel) : Chores T r (r.cleared i c) := by
  have hdropped : Chores T r (r.dropTimer i) := .single hi .drop
  refine .ite (hdropped.trans (chores_shutdownChannel hi ?_)) hdropped
  rwa [Terms.Named, transports_dropTimer]

/-- **An open begins from a channel that was cleared.** -/
theorem chores_openChannel (hseeks : T.seeks) (hopens : T.opens mask) (hnamed : T.Named r)
    (hripe : T.rests → r.Ripe) : Chores T r (r.openChannel i mask) := by
  refine openChannel_cases (.refl r) fun c hc hvalid hstate => ?_
  have hcleared := chores_cleared hi hnamed c
  have hbare : T.rests → (r.cleared i c).Bare i .closed := fun hrests => (hripe hrests).clears hc hstate
  obtain ⟨c', hc'⟩ := hcleared.trail.exists_later hc
  have hbegun : Chores T r ((r.cleared i c).begun i mask) :=
    hcleared.tail hi (.begin hopens hvalid hc' hbare)
  exact hbegun.trans (chores_continueOpen hi hseeks fun hrests _ _ _ => (hbare hrests).begun mask)

theorem chores_setRemote (hseeks : T.seeks) (hripe : T.rests → r.Ripe) (host : Option String)
    (port : Option UInt16) : Chores T r (r.setRemote i host port) := by
  refine setRemote_cases (.refl r) fun c e cache hc heq => ?_
  have hretargeted : Chores T r (r.updateChannel i ({ · with endpoint := e, cache := cache })) :=
    .single hi (.seek hseeks (.retarget hc heq))
  refine hretargeted.trans (chores_continueOpen hi hseeks fun hrests c' hc' hpending => ?_)
  obtain ⟨c₀, hc₀, rfl⟩ := exists_of_updateChannel hc'
  exact ((hripe hrests).waits hc₀ hpending).updateChannel fun _ hstate hsocket => ⟨hstate, hsocket⟩

end

/-- **An answer is taken in**, and an open that waited for it goes on or fails. -/
theorem chores_resolved {a : Resolution} (hi : T.concerns a.channel) (hhears : T.hears)
    (hripe : T.rests → r.Ripe) : Chores T r (r.resolved a) := by
  have htaken : ∀ c, r.channel? a.channel = some c → c.cache.accepts a.epoch = true →
      Chores T r (r.answeredBy a c) := fun c hc haccepts =>
    .single hi (.answer hhears rfl hc haccepts)
  have hbare : ∀ c, r.channel? a.channel = some c → c.pendingOpen = true → T.rests →
      (r.answeredBy a c).Bare a.channel .opening := fun c hc hpending hrests =>
    ((hripe hrests).waits hc hpending).updateChannel fun _ hstate hsocket => ⟨hstate, hsocket⟩
  refine resolved_cases (fun _ => .refl r) (fun _ _ _ => .refl r) (fun c hc haccepts _ => htaken c hc haccepts)
    (fun c hc haccepts hpending hready => ?_) fun c hc haccepts hpending => ?_
  · exact (htaken c hc haccepts).trans
      (chores_establish hi (located_answeredBy hready) (hbare c hc hpending))
  · exact (htaken c hc haccepts).tail hi (.fail .lookupFailed fun hrests c' hc' =>
      ((hbare c hc hpending hrests).channel c' hc').1)

/-! ## Serving -/

theorem channel?_accepted (r : Reactor σ) (i : Nat) (mask : ChannelMask) (d : Descriptor) :
    (r.accepted i mask d).channel? i = r.channel? i :=
  (channel?_emit _ _ _).trans (channel?_applyKeepAlive r d i)

/-- A message of a peer changes nothing of a server but its list of peers. -/
theorem exists_onDatagram (hc : r.channel? i = some c) (mask : ChannelMask) (d : Descriptor)
    (peer : SocketAddress) (payload : Bytes) :
    ∃ c', (r.onDatagram i mask d peer payload).channel? i = some c' ∧ c'.standing = c.standing := by
  refine onDatagram_cases (fun _ _ => ⟨c, (channel?_emit _ _ _).trans hc, rfl⟩) ⟨c, hc, rfl⟩
    (fun _ _ _ _ => ⟨c, hc, rfl⟩) fun _ d' w _ _ => ?_
  let r₁ : Reactor σ := { r with world := w }
  have hc₁ : (r₁.addTransport i mask d').2.channel? i = some c := hc
  let h := (r₁.addTransport i mask d').1
  refine ⟨{ c with peers := (peer, h.id) :: c.peers.filter (·.1 ≠ peer) }, ?_, rfl⟩
  simp only [introduced, channel?_emit, channel?_updateChannel_self]
  exact congrArg (Option.map _) hc₁

omit [Host σ] in
/-- A channel that stands as it did relays as it did. -/
theorem Relays.of_standing (h : r.Relays T i c) {c' : Channel} (hc' : r'.channel? i = some c')
    (hsame : c'.standing = c.standing) : c'.mask = c.mask ∧ r'.Relays T i c' := by
  simp only [Channel.standing, Channel.holding, Prod.mk.injEq] at hsame
  obtain ⟨⟨hmask, -⟩, hstate⟩ := hsame
  refine ⟨hmask, hc', ?_, hmask ▸ h.valid⟩
  rw [Channel.routes, hstate, hmask]
  exact h.routes

section
variable (hi : T.concerns i)
include hi

theorem chores_acceptAll (hc : r.channel? i = some c) (htcp : c.mask.isTcp = true) (d : Descriptor)
    (turns : Nat) : Chores T r (acceptAll i c.mask d turns r) := by
  let P : Reactor σ → Prop := fun r' => Chores T r r' ∧ r'.channel? i = some c
  have hall : P (acceptAll i c.mask d turns r) := by
    refine acceptAll_ind (P := P) (fun answer w hr heq hnone => ?_) (fun peer address w hr heq => ?_) turns
      ⟨.refl r, hc⟩
    · exact ⟨hr.1.tail hi (.ask (.accept heq hnone)), hr.2⟩
    · exact ⟨hr.1.tail hi (.accept hr.2 htcp heq), (channel?_accepted _ i c.mask peer).trans hr.2⟩
  exact hall.1

theorem chores_onDatagram (hrelays : r.Relays T i c) (d : Descriptor) (peer : SocketAddress)
    (payload : Bytes) : Chores T r (r.onDatagram i c.mask d peer payload) :=
  onDatagram_cases (fun _ hpeer => .single hi (.packet hrelays hpeer payload)) (.refl r)
    (fun _ _ _ heq => .single hi (.ask (.homeless heq)))
    fun _ _ _ hunknown heq => .single hi (.greet hrelays hunknown heq payload)

theorem chores_receiveDatagrams (hrelays : r.Relays T i c) (d : Descriptor) (turns : Nat) :
    Chores T r (receiveDatagrams i c.mask d turns r) := by
  let P : Reactor σ → Prop := fun r' => Chores T r r' ∧
    ∃ c', r'.channel? i = some c' ∧ c'.standing = c.standing
  have hall : P (receiveDatagrams i c.mask d turns r) := by
    refine receiveDatagrams_ind (P := P) (fun {r'} answer w hr heq => ?_) (fun {r'} payload peer hr => ?_)
      turns ⟨.refl r, c, hrelays.channel, rfl⟩
    · exact ⟨hr.1.tail hi (.ask ((Host.Ask.receiveFrom d _ r'.world).of_eq heq)), hr.2⟩
    · obtain ⟨hchores, c', hc', hsame⟩ := hr
      obtain ⟨c'', hc'', hsame'⟩ := exists_onDatagram hc' c.mask d peer payload
      obtain ⟨hmask, hrelays'⟩ := hrelays.of_standing hc' hsame
      refine ⟨hchores.trans ?_, c'', hc'', hsame'.trans hsame⟩
      exact hmask ▸ chores_onDatagram hi hrelays' d peer payload
  exact hall.1

/-- **A channel's socket shows something.** -/
theorem chores_serveChannel (hripe : T.rests → r.Ripe) : Chores T r (r.serveChannel i) := by
  refine serveChannel_cases (.refl r) (fun c hc hclient hopening => ?_)
    (fun c d hc htcp => chores_acceptAll hi hc htcp d _) fun c d hc hopened hserver hstream => ?_
  · refine chores_finishConnect hi (fun c' hc' => ?_) fun c' hc' => ?_
    · exact Option.some.inj (hc.symm.trans hc') ▸ hclient
    · exact Option.some.inj (hc.symm.trans hc') ▸ hopening
  · have hroutes : c.routes = true := by simp [Channel.routes, hopened, hserver, hstream]
    exact chores_receiveDatagrams hi ⟨hc, hroutes, fun hrests => (hripe hrests).valid hc hopened⟩ d _

end

/-! ## Readiness -/

theorem chores_serveIfChannel (hall : ∀ j, T.concerns j) (hripe : T.rests → r.Ripe) (x : Readiness Owner) :
    Chores T r (r.serveIfChannel x) := by
  unfold serveIfChannel
  split
  · exact chores_serveChannel (hall _) hripe
  · exact .refl r

theorem chores_readIfTransport (hall : ∀ j, T.concerns j) (x : Readiness Owner) :
    Chores T r (r.readIfTransport x) := by
  unfold readIfTransport
  split
  · exact .ite (chores_readTransport fun _ _ => hall _) (.refl r)
  · exact .refl r

/-! ## Commands and timers -/

/-- What a command takes on these terms: answers only if they are heard, and opens only what may be opened, from
rest if that is asked for. -/
structure Terms.Admits (T : Terms) (r : Reactor σ) (c : Command) : Prop where
  all : ∀ j, T.concerns j
  seeks : T.seeks
  named : T.Named r
  hears : c.isRequest = true ∨ T.hears
  opens : ∀ {i mask}, c = .openChannel i mask → T.opens mask
  reopens : ∀ {i id c'}, c = .reopen i id → (r.closeTransport id).channel? i = some c' → T.opens c'.mask
  ripe : T.rests → r.Ripe
  closes : T.rests → ∀ {i id}, c = .reopen i id → (r.closeTransport id).Ripe

/-- **A command is carried out in chores.** -/
theorem chores_perform {c : Command} (h : T.Admits r c) : Chores T r (r.perform c) := by
  cases c with
  | openChannel i mask => exact chores_openChannel (h.all i) h.seeks (h.opens rfl) h.named h.ripe
  | closeChannel i => exact chores_closeChannel (h.all i) h.named
  | closeTransport id => exact chores_closeTransport fun t _ => h.all _
  | reopen i id =>
    have hclosed : Chores T r (r.closeTransport id) := chores_closeTransport fun t _ => h.all _
    simp only [perform]
    split
    · rename_i c' hc'
      refine hclosed.trans (chores_openChannel (h.all i) h.seeks (h.reopens rfl hc') ?_ fun hrests =>
        h.closes hrests rfl)
      rw [Terms.Named, transports_closeTransport]
      exact h.named.imp_left (Arena.fits_of_size (Arena.size_remove _ _).symm)
    · exact hclosed
  | resolved a => exact chores_resolved (h.all _) (h.hears.resolve_left (by simp [Command.isRequest])) h.ripe
  | setRemote i host port => exact chores_setRemote (h.all i) h.seeks h.ripe host port
  | setLocalPort i port => exact .single (h.all i) (.port port)

/-- What a fired timer takes on these terms. -/
structure Terms.Yields (T : Terms) (r : Reactor σ) (e : Timer.Expired Task) : Prop where
  all : ∀ j, T.concerns j
  seeks : T.seeks
  named : T.Named r
  opens : ∀ {i c}, e.payload = .reconnect i → r.channel? i = some c → T.opens c.mask
  ripe : T.rests → ∀ {i c}, e.payload = .reconnect i → r.channel? i = some c →
    c.timer = some e.handle → (r.updateChannel i ({ · with timer := none })).Ripe

/-- **A timer that fires leads to chores**, for a channel's own timer after its slot was emptied. -/
theorem chores_fire {e : Timer.Expired Task} (h : T.Yields r e) : Chores T r (r.fire e) ∨
    ∃ i c, e.payload.channel? = some i ∧ r.channel? i = some c ∧ c.timer = some e.handle ∧
      Chores T (r.updateChannel i ({ · with timer := none })) (r.fire e) := by
  refine fire_cases (fun timer _ => .inl (.single (h.all 0) (.script timer e.cancelled)))
    (fun _ _ _ => .inl (.refl r)) (fun i c htask hc htimer => .inr ⟨i, c, ?_, hc, htimer, .refl _⟩)
    (fun i c htask hc htimer hopening => .inr ⟨i, c, congrArg Task.channel? htask, hc, htimer, ?_⟩)
    fun i c htask hc htimer _ => .inr ⟨i, c, congrArg Task.channel? htask, hc, htimer, ?_⟩
  · rcases htask with htask | htask
    all_goals rw [htask, Task.channel?]
  · refine .single (h.all i) (.fail .connectTimeout fun _ c' hc' => ?_)
    obtain rfl := Option.some.inj ((channel?_taken hc).symm.trans hc')
    exact hopening
  · exact chores_openChannel (h.all i) h.seeks (h.opens htask hc) h.named fun hrests =>
      h.ripe hrests htask hc htimer

/-- **What rows of chores keep, and the emptying of a timer's slot, a fired timer keeps.** -/
theorem keeps_fire {P : Reactor σ → Prop} {e : Timer.Expired Task} (h : T.Yields r e)
    (htaken : ∀ i, P r → P (r.updateChannel i ({ · with timer := none })))
    (hchores : ∀ {r r'}, Chores T r r' → P r → P r') (hr : P r) : P (r.fire e) := by
  rcases chores_fire h with hfired | ⟨i, c, -, -, -, hfired⟩
  · exact hchores hfired hr
  · exact hchores hfired (htaken i hr)

/-- Where nothing is asked of the state, nothing is refused but what is not allowed. -/
theorem Terms.Admits.of_not_rests (hrests : ¬ T.rests) (hall : ∀ j, T.concerns j) (hseeks : T.seeks)
    (hopens : ∀ mask, T.opens mask) {c : Command} (hhears : c.isRequest = true ∨ T.hears) : T.Admits r c where
  all := hall
  seeks := hseeks
  named := .inr ⟨hrests, hall⟩
  hears := hhears
  opens _ := hopens _
  reopens _ _ := hopens _
  ripe h := absurd h hrests
  closes h := absurd h hrests

theorem Terms.Yields.of_not_rests (hrests : ¬ T.rests) (hall : ∀ j, T.concerns j) (hseeks : T.seeks)
    (hopens : ∀ mask, T.opens mask) (e : Timer.Expired Task) : T.Yields r e where
  all := hall
  seeks := hseeks
  named := .inr ⟨hrests, hall⟩
  opens _ _ := hopens _
  ripe h := absurd h hrests

theorem admits_any (c : Command) : Terms.any.Admits r c :=
  .of_not_rests id (fun _ => trivial) trivial (fun _ => trivial) (.inr trivial)

theorem yields_any (e : Timer.Expired Task) : Terms.any.Yields r e :=
  .of_not_rests id (fun _ => trivial) trivial (fun _ => trivial) e

omit [Host σ] in
theorem named_any : Terms.any.Named r := .inr ⟨id, fun _ => trivial⟩

/-! ## The end of a run -/

/-- **A teardown closes everything in chores.** -/
theorem chores_closed (hall : ∀ j, T.concerns j) (hnamed : T.Named r) : Chores T r r.closed := by
  let P : Reactor σ → Prop := fun r' => Chores T r r' ∧ T.Named r'
  have hsize : ∀ {r r' : Reactor σ}, T.Named r → r'.transports.slots.size = r.transports.slots.size →
      T.Named r' := fun hnamed hsame => hnamed.imp_left (Arena.fits_of_size hsame.symm)
  have hlost : P (r.transports.ids.foldl (fun r id => r.loseTransport id Status.closedHere) r) := by
    refine List.foldlRecOn (motive := P) _ _ ⟨.refl r, hnamed⟩ fun r' hr id _ => ?_
    refine ⟨hr.1.trans (chores_loseTransport (fun t _ => hall _) _), hsize hr.2 ?_⟩
    rw [transports_loseTransport, Arena.size_remove]
  have hclosed : P r.closed := by
    refine List.foldlRecOn (motive := P) _ _ hlost fun r' hr i _ => ?_
    exact ⟨hr.1.trans (chores_shutdownChannel (hall i) hr.2), hsize hr.2 (size_shutdownChannel r' i)⟩
  exact hclosed.1

/-! ## Handlers as paths -/

theorem trail_shutdownChannel (r : Reactor σ) (i : Nat) : Trail r (r.shutdownChannel i) :=
  (chores_shutdownChannel (T := .any) trivial named_any).trail

theorem trail_closeChannel (r : Reactor σ) (i : Nat) : Trail r (r.closeChannel i) :=
  (chores_closeChannel (T := .any) trivial named_any).trail

theorem trail_openChannel (r : Reactor σ) (i : Nat) (mask : ChannelMask) :
    Trail r (r.openChannel i mask) :=
  (chores_openChannel (T := .any) trivial trivial trivial named_any False.elim).trail

theorem trail_fire (r : Reactor σ) (e : Timer.Expired Task) : Trail r (r.fire e) := by
  have htaken : ∀ i, Path i r (r.updateChannel i ({ · with timer := none })) := fun i => .single .take
  exact keeps_fire (P := Trail r) (yields_any e) (fun i _ => (htaken i).trail)
    (fun hchores htrail => htrail.trans hchores.trail) (.refl r)

theorem trail_closed (r : Reactor σ) : Trail r r.closed :=
  (chores_closed (T := .any) (fun _ => trivial) named_any).trail

/-- What is sent first changes nothing but queues; then those transports are lost that failed. -/
theorem exists_flushTransports (r : Reactor σ) : ∃ (failed : List (TransportId × Status)) (r' : Reactor σ),
    r.Idle r' ∧ r.flushTransports = failed.foldl (fun r f => r.loseTransport f.1 f.2) r' :=
  exists_flushed (P := r.Idle) (idle_now r) fun now id h => h.trans (idle_flushTransport _ now id)

theorem path_closeTransport {t : Transport} (ht : r.transports.get? id = some t) :
    Path t.handle.channel r (r.closeTransport id) :=
  (chores_closeTransport fun _ ht' => congrArg (·.handle.channel) (Option.some.inj (ht'.symm.trans ht))).path

theorem path_shutdownChannel (hfits : r.transports.Fits) : Path i r (r.shutdownChannel i) :=
  (chores_shutdownChannel rfl (.inl hfits)).path

theorem path_closeChannel (hfits : r.transports.Fits) : Path i r (r.closeChannel i) :=
  (chores_closeChannel rfl (.inl hfits)).path

theorem path_cleared (hfits : r.transports.Fits) (c : Channel) : Path i r (r.cleared i c) :=
  (chores_cleared rfl (.inl hfits) c).path

/-- **An open is a path of its own channel.** -/
theorem path_openChannel (hfits : r.transports.Fits) (mask : ChannelMask) :
    Path i r (r.openChannel i mask) :=
  (chores_openChannel rfl trivial trivial (.inl hfits) False.elim).path

theorem path_resolved (r : Reactor σ) (a : Resolution) : Path a.channel r (r.resolved a) :=
  (chores_resolved rfl trivial False.elim).path

theorem path_setRemote (r : Reactor σ) (i : Nat) (host : Option String) (port : Option UInt16) :
    Path i r (r.setRemote i host port) :=
  (chores_setRemote rfl trivial False.elim host port).path

theorem path_serveChannel (r : Reactor σ) (i : Nat) : Path i r (r.serveChannel i) :=
  (chores_serveChannel rfl False.elim).path

end NetReactor.Reactor
