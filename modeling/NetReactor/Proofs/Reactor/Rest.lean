import NetReactor.Proofs.Reactor.Settled

/-!
# Losing, closing and serving

The rest of what is done for a channel leaves it settled too: **the loss of its only transport closes a
client** and leaves a server as it is; a shutdown leaves nothing of either (`Shut`), and an open begins
from there (`exists_openChannel`).
-/

namespace NetReactor.Reactor

open Timer (Expired)

variable {σ : Type} [Host σ] {due : List (Expired Task)} {r r' : Reactor σ} {i : Nat} {c : Channel}

/-! ## Losing a transport -/

theorem transports_parted (r : Reactor σ) (id : TransportId) (t : Transport) (status : Status) :
    (r.parted id t status).transports = (r.transports.remove id).2 :=
  congrArg (fun a : Arena Transport => (a.remove id).2) (transports_emit _ _)

theorem channel?_parted (r : Reactor σ) (id : TransportId) (t : Transport) (status : Status) :
    (r.parted id t status).channel? t.handle.channel =
      (r.channel? t.handle.channel).map fun c => { c with peers := c.peers.filter (·.2 ≠ id) } :=
  (channel?_updateChannel_self _ _ _).trans (congrArg (Option.map _) (channel?_emit _ _ _))

theorem answers_parted (r : Reactor σ) (id : TransportId) (t : Transport) (status : Status) (j : Nat) :
    (r.parted id t status).answers j = r.answers j :=
  answers_emit _ _ j

@[simp] theorem answers_afterLoss (r : Reactor σ) (i j : Nat) (status : Status) :
    (r.afterLoss i status).answers j = r.answers j :=
  afterLoss_cases (motive := fun r' => r'.answers j = r.answers j) rfl (fun _ _ _ => rfl)
    fun _ _ _ _ => answers_scheduleReconnect _ i j

@[simp] theorem answers_loseTransport (r : Reactor σ) (id : TransportId) (status : Status) (j : Nat) :
    (r.loseTransport id status).answers j = r.answers j := by
  cases ht : r.transports.get? id with
  | none => rw [loseTransport_of_none ht]
  | some t => rw [loseTransport_of_some ht, answers_afterLoss, answers_parted]

@[simp] theorem answers_closeTransport (r : Reactor σ) (id : TransportId) (j : Nat) :
    (r.closeTransport id).answers j = r.answers j := by
  unfold closeTransport
  split
  · rw [answers_loseTransport]
    have hidle := (idle_now r).trans (idle_flushTransport r.now.2 (Host.now r.world).1 id)
    exact answers_congr (emitted_of_plays hidle.plays) j
  · rfl

theorem desk_parted (r : Reactor σ) (id : TransportId) (t : Transport) (status : Status)
    (due : List (Expired Task)) : (r.desk due).Moves ((r.parted id t status).desk due) := by
  let r₁ := { (r.unwatch t.descriptor).shutdownSocket t.descriptor with
    service := r.service.updateConnection t.handle (·.close status) }
  let r₂ := r₁.emit (.connectionLost t.handle.channel status t.handle)
  have htold : (r.desk due).Moves (r₂.desk due) := desk_emit r₁ _ due
  have hpath : Path t.handle.channel { r₂ with transports := (r₂.transports.remove id).2 }
      (r.parted id t status) :=
    (path_closeSocket _ _).trans (path_updateChannel _ _ fun _ => by exact ⟨rfl, rfl⟩)
  exact Relation.ReflTransGen.trans htold (hpath.trail.desk due)

/-- A client without its transport is closed, and tries again later if it is to. -/
theorem rests_afterLoss (hc : r.channel? i = some c) (hopened : c.state = .opened)
    (hclient : c.mask.isClient = true) (hsocket : c.socket = none) (hpending : c.pendingOpen = false)
    (htimer : c.timer = none) (halone : r.Alone i) (hdesk : (r.desk due).Sound) (status : Status) :
    Rests due i c r (r.afterLoss i status) := by
  let r₁ := (r.updateChannel i ({ · with lastStatus := status })).setState i .closed
  have hpath₁ : Path i r r₁ :=
    (path_updateChannel _ _ fun _ => by exact ⟨rfl, rfl⟩).trans (path_setState _ _ _)
  have hc₁ : r₁.channel? i = some { c with lastStatus := status, state := .closed } := by
    simp [r₁, hc]
  have hshut : Shut { c with lastStatus := status, state := .closed } := ⟨rfl, hsocket, hpending, htimer⟩
  have hundertaken : r₁.undertaken i = r.undertaken i := by
    rw [undertaken_of_channel hc, undertaken_of_channel hc₁]
    simp [r₁, hopened]
  simp only [afterLoss, hc]
  rw [if_pos hclient]
  split
  · rename_i hagain
    have htcp : (c.mask.isClient && c.mask.isTcp) = true := by simp_all
    exact (rests_scheduleReconnect hc₁ hshut halone ((hpath₁.trail.desk due).sound hdesk) htcp).of_eq
      rfl fun _ => hundertaken
  · exact ⟨_, hc₁, rfl, hshut.settled halone, fun _ => hundertaken⟩

/-- **A lost transport closes the client it was of**, and leaves a server as it is. -/
theorem rests_loseTransport {id : TransportId} {t : Transport} (ht : r.transports.get? id = some t)
    (hi : t.handle.channel = i) (hc : r.channel? i = some c) (hs : r.Settled due i c)
    (hdesk : (r.desk due).Sound) (status : Status) : Rests due i c r (r.loseTransport id status) := by
  subst hi
  rw [loseTransport_of_some ht]
  let c₁ := { c with peers := c.peers.filter (·.2 ≠ id) }
  have hc₁ : (r.parted id t status).channel? t.handle.channel = some c₁ := by
    rw [channel?_parted, hc]
    rfl
  have hdesk₁ := (desk_parted r id t status due).sound hdesk
  have hundertaken : (r.parted id t status).undertaken t.handle.channel =
      r.undertaken t.handle.channel := by
    rw [undertaken_of_channel hc, undertaken_of_channel hc₁, answers_parted]
  have hlives : r.Live t.handle.channel id := ⟨t, ht, rfl⟩
  cases hs with
  | closed hstate hsocket hpending halone htimer => exact absurd hlives (halone id)
  | lookingUp hopening hsocket hpending hcache => exact absurd hlives (hopening.alone id)
  | connecting hopening hclient hsocket hpending => exact absurd hlives (hopening.alone id)
  | connected hstate hvalid hclient hsocket hpending htimer honly =>
    obtain ⟨only, honly⟩ := honly
    have halone₁ : (r.parted id t status).Alone t.handle.channel := by
      intro id' hid'
      obtain ⟨hlive, hne⟩ := (live_of_remove (transports_parted r id t status) _ _).1 hid'
      exact hne (((honly id').1 hlive).trans ((honly id).1 hlives).symm)
    exact (rests_afterLoss hc₁ hstate hclient hsocket hpending htimer halone₁ hdesk₁ status).of_eq rfl
      fun _ => hundertaken
  | serving hstate hvalid hserver hsocket hpending htimer =>
    simp only [afterLoss, hc₁]
    rw [if_neg (by simp [c₁, hserver])]
    exact ⟨c₁, hc₁, rfl, .serving hstate hvalid hserver hsocket hpending htimer, fun _ => hundertaken⟩

theorem rests_closeTransport {id : TransportId} {t : Transport} (ht : r.transports.get? id = some t)
    (hi : t.handle.channel = i) (hc : r.channel? i = some c) (hs : r.Settled due i c)
    (hdesk : (r.desk due).Sound) : Rests due i c r (r.closeTransport id) := by
  have hlive : r.transports.contains id = true := by simp [Arena.contains, ht]
  rw [closeTransport, if_pos hlive]
  have hidle := (idle_now r).trans (idle_flushTransport r.now.2 (Host.now r.world).1 id)
  let r₁ := (r.now.2.flushTransport (Host.now r.world).1 id).2
  have hchannels : r₁.channel? i = r.channel? i := congrArg (·[i]?) hidle.channels
  have hundertaken : r₁.undertaken i = r.undertaken i := by
    rw [undertaken, undertaken, hchannels, answers_congr (emitted_of_plays hidle.plays)]
  have ht₁ : r₁.transports.get? id = some t := by rwa [hidle.transports]
  exact (rests_loseTransport ht₁ hi (hchannels.trans hc) (hs.trail hidle.trail hidle.transports)
    ((hidle.trail.desk due).sound hdesk) Status.closedHere).of_eq rfl fun _ => hundertaken

/-! ## Closing a channel -/

/-- A transport that this side closes takes nothing from its channel but its state. -/
theorem exists_closeTransport {id : TransportId}
    (hi : ∀ t, r.transports.get? id = some t → t.handle.channel = i) (hc : r.channel? i = some c) :
    ∃ c', (r.closeTransport id).channel? i = some c' ∧ c'.holding = c.holding := by
  cases ht : r.transports.get? id with
  | none =>
    rw [closeTransport_of_none ht]
    exact ⟨c, hc, rfl⟩
  | some t =>
    obtain rfl := hi t ht
    have hlive : r.transports.contains id = true := by simp [Arena.contains, ht]
    have hidle := (idle_now r).trans (idle_flushTransport r.now.2 (Host.now r.world).1 id)
    let r₁ := (r.now.2.flushTransport (Host.now r.world).1 id).2
    have hc₁ : r₁.channel? t.handle.channel = some c := (congrArg (·[_]?) hidle.channels).trans hc
    have ht₁ : r₁.transports.get? id = some t := by rwa [hidle.transports]
    have hc₂ : (r₁.parted id t Status.closedHere).channel? t.handle.channel =
        some { c with peers := c.peers.filter (·.2 ≠ id) } := by
      rw [channel?_parted, hc₁]
      rfl
    have hclose : r.closeTransport id =
        (r₁.parted id t Status.closedHere).afterLoss t.handle.channel Status.closedHere := by
      rw [closeTransport, if_pos hlive]
      exact loseTransport_of_some ht₁ _
    simp only [hclose, afterLoss, hc₂, ne_eq, not_true_eq_false, decide_false, Bool.and_false,
      Bool.false_eq_true, if_false]
    split
    · exact ⟨{ c with
        peers := c.peers.filter (·.2 ≠ id), lastStatus := Status.closedHere, state := .closed },
        by simp [hc₂], rfl⟩
    · exact ⟨_, hc₂, rfl⟩

theorem exists_closeTransports {ids : List TransportId}
    (hi : ∀ id ∈ ids, ∀ t, r.transports.get? id = some t → t.handle.channel = i)
    (hc : r.channel? i = some c) :
    ∃ c', (ids.foldl closeTransport r).channel? i = some c' ∧ c'.holding = c.holding := by
  induction ids generalizing r c with
  | nil => exact ⟨c, hc, rfl⟩
  | cons id rest ih =>
    obtain ⟨c₁, hc₁, hheld₁⟩ := exists_closeTransport (hi id List.mem_cons_self) hc
    obtain ⟨c', hc', hheld'⟩ := ih (r := r.closeTransport id) (fun id' hid' t' ht' => by
      rw [transports_closeTransport, Arena.get?_remove] at ht'
      split at ht'
      · simp at ht'
      · exact hi id' (List.mem_cons_of_mem id hid') t' ht') hc₁
    exact ⟨c', hc', hheld'.trans hheld₁⟩

theorem answers_closeTransports (ids : List TransportId) (r : Reactor σ) (j : Nat) :
    (ids.foldl closeTransport r).answers j = r.answers j := by
  induction ids generalizing r with
  | nil => rfl
  | cons first rest ih => exact (ih _).trans (answers_closeTransport r first j)

theorem channel?_silenced (r : Reactor σ) (i : Nat) : (r.silenced i).channel? i =
    (r.channel? i).map ({ · with timer := none, pendingOpen := false, socket := none }) := by
  have hdropped : ((r.dropTimer i).updateChannel i ({ · with pendingOpen := false })).channel? i =
      (r.channel? i).map ({ · with timer := none, pendingOpen := false }) := by
    rw [channel?_updateChannel_self, channel?_dropTimer, Option.map_map]
    rfl
  rw [silenced, channel?_releaseSocket]
  split
  all_goals
    refine (congrArg (Option.map _) hdropped).trans ?_
    rw [Option.map_map]
    rfl

theorem answers_silenced (r : Reactor σ) (i j : Nat) : (r.silenced i).answers j = r.answers j := by
  rw [silenced, answers_releaseSocket]
  split
  · exact answers_dropTimer r i j
  · exact answers_dropTimer r i j

/-- **A shutdown leaves nothing of a channel.** -/
theorem exists_shutdownChannel (hc : r.channel? i = some c) (hfits : r.transports.Fits) :
    ∃ c', (r.shutdownChannel i).channel? i = some c' ∧ c'.mask = c.mask ∧ Shut c' ∧
      (r.shutdownChannel i).Alone i ∧ (r.shutdownChannel i).answers i = r.answers i := by
  let r₁ := r.silenced i
  have hc₁ : r₁.channel? i = some { c with timer := none, pendingOpen := false, socket := none } := by
    rw [channel?_silenced, hc]
    rfl
  have hfits₁ : r₁.transports.Fits := by rwa [transports_silenced]
  have howned : ∀ id ∈ r₁.transportsOf i, ∀ t, r₁.transports.get? id = some t → t.handle.channel = i := by
    intro id hid t ht
    obtain ⟨t', ht', hi⟩ := channel_of_mem_transportsOf hfits₁ hid
    obtain rfl := Option.some.inj (ht.symm.trans ht')
    exact hi
  obtain ⟨c₂, hc₂, hheld⟩ := exists_closeTransports howned hc₁
  simp only [Channel.holding, Prod.mk.injEq] at hheld
  obtain ⟨hmask, hsocket, hpending, htimer⟩ := hheld
  refine ⟨{ c₂ with peers := [], state := .closed }, ?_, hmask, ⟨rfl, hsocket, hpending, htimer⟩,
    alone_shutdownChannel hfits, ?_⟩
  · rw [shutdownChannel_eq, channel?_setState, channel?_updateChannel_self, hc₂]
    rfl
  · rw [shutdownChannel_eq, answers_setState, answers_updateChannel, answers_closeTransports,
      answers_silenced]

theorem rests_closeChannel (hc : r.channel? i = some c) (hfits : r.transports.Fits) :
    Rests due i c r (r.closeChannel i) := by
  obtain ⟨c', hc', hmask, hshut, halone, hanswers⟩ := exists_shutdownChannel hc hfits
  simp only [closeChannel, hc]
  by_cases hstate : c.state = .opening
  · rw [if_pos hstate]
    refine ⟨c', (channel?_emit _ _ i).trans hc', hmask,
      hshut.settled (alone_congr (transports_emit _ _) halone), fun _ => ?_⟩
    rw [undertaken_of_channel hc, undertaken_of_channel ((channel?_emit _ _ i).trans hc')]
    simp [hanswers, hstate, hshut.state, Event.answers]
  · rw [if_neg hstate]
    refine ⟨c', hc', hmask, hshut.settled halone, fun _ => ?_⟩
    rw [undertaken_of_channel hc, undertaken_of_channel hc', hanswers]
    simp [hstate, hshut.state]

/-! ## Opening anew -/

/-- What is open is shut down before an open begins. -/
theorem exists_cleared (hc : r.channel? i = some c) (hs : r.Settled due i c)
    (hstate : c.state ≠ .opening) (hfits : r.transports.Fits) :
    ∃ c₁, (r.cleared i c).channel? i = some c₁ ∧ Shut c₁ ∧ (r.cleared i c).Alone i ∧
      (r.cleared i c).answers i = r.answers i := by
  have hc₀ : (r.dropTimer i).channel? i = some { c with timer := none } := by simp [hc]
  unfold cleared
  by_cases hopened : c.state = .opened
  · rw [if_pos hopened]
    have hfits₀ : (r.dropTimer i).transports.Fits := by rwa [transports_dropTimer]
    obtain ⟨c', hc', -, hshut, halone, hanswers⟩ := exists_shutdownChannel hc₀ hfits₀
    exact ⟨c', hc', hshut, halone, hanswers.trans (answers_dropTimer r i i)⟩
  · rw [if_neg hopened]
    cases hs with
    | closed hclosed hsocket hpending halone htimer =>
      exact ⟨_, hc₀, ⟨hclosed, hsocket, hpending, rfl⟩, alone_congr (transports_dropTimer r i) halone,
        answers_dropTimer r i i⟩
    | lookingUp hopening hsocket hpending hcache => exact absurd hopening.state hstate
    | connecting hopening hclient hsocket hpending => exact absurd hopening.state hstate
    | connected hstate hvalid hclient hsocket hpending htimer honly => exact absurd hstate hopened
    | serving hstate hvalid hserver hsocket hpending htimer => exact absurd hstate hopened

theorem channel?_begun (hc : r.channel? i = some c) (mask : ChannelMask) :
    (r.begun i mask).channel? i = some { c with
      mask := mask
      pendingOpen := true
      lastStatus := Status.ok
      state := .opening
      timer := if mask.isClient then some r.service.nextTimer else c.timer } := by
  unfold begun
  split
  · simp only [channel?_armTimer, channel?_setState, channel?_updateChannel_self, hc, Option.map_some]
    rfl
  · simp [hc]

/-- An open begins, with a connect timeout if it is a client's. -/
theorem exists_begun (hc : r.channel? i = some c) (hshut : Shut c) (halone : r.Alone i)
    (hdesk : (r.desk due).Sound) {mask : ChannelMask} (hvalid : mask.isValid = true) :
    ∃ c', (r.begun i mask).channel? i = some c' ∧ c'.mask = mask ∧ (r.begun i mask).Opening due i c' ∧
      c'.socket = none ∧ c'.pendingOpen = true ∧ (r.begun i mask).answers i = r.answers i := by
  let r₁ := (r.updateChannel i
    ({ · with mask := mask, pendingOpen := true, lastStatus := Status.ok })).setState i .opening
  have hpath₁ : Path i r r₁ :=
    (path_updateChannel r i fun _ => by exact ⟨rfl, rfl⟩).trans (path_setState _ i _)
  have hdesk₁ : (r₁.desk due).Sound := (hpath₁.trail.desk due).sound hdesk
  have hbegun : r.begun i mask =
      if mask.isClient then r₁.armTimer i r₁.options.connectTimeout (.connectTimeout i) else r₁ := rfl
  refine ⟨_, channel?_begun hc mask, rfl, ?_⟩
  rw [hbegun]
  by_cases hclient : mask.isClient = true
  · rw [if_pos hclient, if_pos hclient]
    refine ⟨⟨rfl, hvalid, alone_congr (transports_armTimer _ _ _ _) halone, ?_⟩, hshut.socket, rfl,
      answers_armTimer r₁ i i _ _⟩
    rw [if_pos hclient]
    exact ⟨_, rfl, tagged_armTimer hdesk₁ _ _⟩
  · rw [if_neg hclient, if_neg hclient]
    refine ⟨⟨rfl, hvalid, halone, ?_⟩, hshut.socket, rfl, rfl⟩
    rw [if_neg hclient]
    exact hshut.timer

/-- **An open that is taken up comes to rest**, and one more is accounted for if it is a client's. -/
theorem exists_openChannel (hc : r.channel? i = some c) (hs : r.Settled due i c)
    {mask : ChannelMask} (hvalid : mask.isValid = true) (hstate : c.state ≠ .opening)
    (hsound : r.transports.Sound) (hdesk : (r.desk due).Sound)
    (hfits : (r.openChannel i mask).transports.Fits) :
    ∃ c', (r.openChannel i mask).channel? i = some c' ∧ c'.mask = mask ∧
      (r.openChannel i mask).Settled due i c' ∧
      (mask.isServer = false → (r.openChannel i mask).undertaken i = r.undertaken i + 1) := by
  have hfits₀ : r.transports.Fits := (trail_openChannel r i mask).fits hfits
  obtain ⟨c₁, hc₁, hshut, halone, hanswers₁⟩ := exists_cleared hc hs hstate hfits₀
  have hpath₁ : Path i r (r.cleared i c) := path_cleared hfits₀ c
  obtain ⟨c₂, hc₂, hmask₂, hopening₂, hsocket₂, hpending₂, hanswers₂⟩ :=
    exists_begun hc₁ hshut halone ((hpath₁.trail.desk due).sound hdesk) hvalid
  have hpath₂ : Path i r ((r.cleared i c).begun i mask) := hpath₁.trans (path_begun _ i mask)
  have hopen : r.openChannel i mask = ((r.cleared i c).begun i mask).continueOpen i := by
    rw [openChannel_of_some hc, if_neg (by simp [hvalid, hstate])]
  rw [hopen] at hfits ⊢
  obtain ⟨c', hc', hmask', hsettled, hsame⟩ := rests_continueOpen hc₂ hopening₂ hsocket₂ hpending₂
    (hpath₂.sound hsound) ((hpath₂.trail.desk due).sound hdesk) hfits
  refine ⟨c', hc', hmask'.trans hmask₂, hsettled, fun hserver => ?_⟩
  rw [hsame (hmask₂ ▸ hserver), undertaken_of_channel hc₂, undertaken_of_channel hc, if_neg hstate,
    if_pos hopening₂.state, hanswers₂, hanswers₁]

/-! ## Serving -/

theorem channel?_acceptAll (i : Nat) (mask : ChannelMask) (d : Descriptor) (turns : Nat)
    (r : Reactor σ) : (acceptAll i mask d turns r).channel? i = r.channel? i :=
  acceptAll_ind (P := fun r' => r'.channel? i = r.channel? i) (fun _ _ hr _ _ => hr)
    (fun peer _ _ hr _ => (channel?_accepted _ i mask peer).trans hr) turns rfl

theorem exists_receiveDatagrams (mask : ChannelMask) (d : Descriptor) (turns : Nat)
    (hc : r.channel? i = some c) :
    ∃ c', (receiveDatagrams i mask d turns r).channel? i = some c' ∧ c'.standing = c.standing := by
  refine receiveDatagrams_ind (P := fun r' => ∃ c', r'.channel? i = some c' ∧ c'.standing = c.standing)
    (fun _ _ hr _ => hr) (fun payload peer hr => ?_) turns ⟨c, hc, rfl⟩
  obtain ⟨c₁, hc₁, hsame₁⟩ := hr
  obtain ⟨c', hc', hsame⟩ := exists_onDatagram hc₁ mask d peer payload
  exact ⟨c', hc', hsame.trans hsame₁⟩

/-- **A connecting client goes on, and a server takes what comes.** -/
theorem rests_serveChannel (hc : r.channel? i = some c) (hs : r.Settled due i c)
    (hsound : r.transports.Sound) (hdesk : (r.desk due).Sound)
    (hfits : (r.serveChannel i).transports.Fits) : Rests due i c r (r.serveChannel i) := by
  simp only [serveChannel, hc] at hfits ⊢
  cases hs with
  | closed hstate hsocket hpending halone htimer =>
    simp only [hsocket]
    exact .refl hc (.closed hstate hsocket hpending halone htimer)
  | lookingUp hopening hsocket hpending hcache =>
    simp only [hsocket]
    exact .refl hc (.lookingUp hopening hsocket hpending hcache)
  | connecting hopening hclient hsocket hpending =>
    obtain ⟨d, hd⟩ := Option.isSome_iff_exists.1 hsocket
    simp only [hd, hclient, hopening.state] at hfits ⊢
    exact rests_finishConnect hc hopening hclient hpending hd hsound hdesk hfits
  | connected hstate hvalid hclient hsocket hpending htimer honly =>
    simp only [hsocket]
    exact .refl hc (.connected hstate hvalid hclient hsocket hpending htimer honly)
  | serving hstate hvalid hserver hsocket hpending htimer =>
    obtain ⟨d, hd⟩ := Option.isSome_iff_exists.1 hsocket
    have hserves : ∀ {r₁ : Reactor σ} {c₁ : Channel}, r₁.channel? i = some c₁ →
        c₁.standing = c.standing → Rests due i c r r₁ := by
      intro r₁ c₁ hc₁ hsame
      have hsettled : r₁.Settled due i c :=
        .serving hstate hvalid hserver hsocket hpending htimer
      refine ⟨c₁, hc₁, congrArg (·.1.1) hsame, hsettled.of_standing hsame (.inl hpending),
        fun hclient => ?_⟩
      simp [ChannelMask.isServer_of_isValid hvalid, hserver] at hclient
    simp only [hd, hserver, hstate] at hfits ⊢
    split
    · exact hserves ((channel?_acceptAll i _ d _ r).trans hc) rfl
    · obtain ⟨c₁, hc₁, hsame⟩ := exists_receiveDatagrams c.mask d acceptsPerTurn hc
      exact hserves hc₁ hsame

end NetReactor.Reactor
