import NetReactor.Proofs.Reactor.Roster
import NetReactor.Proofs.Reactor.Standing

/-!
# The peers of datagram servers

The lists of peers, the arena and the channels' states change apart, in what handlers do for a message, a
loss, a close or an open. **Whatever a handler does, it does by shifts of the roster** (`Roster.Shifts`), from a
channel that is as it is between handlers: an open begins from a channel without transports (`Reactor.Bare`), and
only an open datagram server takes peers up. So between two handlers every list is right
(`Course.Reachable.roster_sound`).
-/

namespace NetReactor

open Timer (Expired)

/-- Whether a channel routes messages, and its peers. -/
def Channel.row (c : Channel) : Roster.Row := ⟨c.routes, c.peers⟩

theorem Channel.routes_of_opening {c : Channel} (h : c.state = .opening) : c.routes = false := by
  simp [routes, h]

theorem Channel.routes_of_client {c : Channel} (h : c.mask.isClient = true) : c.routes = false := by
  simp [routes, h]

theorem Channel.isUdp_of_routes {c : Channel} (h : c.routes = true) (hvalid : c.mask.isValid = true) :
    c.mask.isUdp = true := by
  simp only [routes, Bool.and_eq_true, Bool.not_eq_true'] at h
  rw [ChannelMask.isUdp_of_isValid hvalid, h.2, Bool.not_false]

namespace Reactor

variable {σ : Type} {r r' : Reactor σ} {i : Nat}

/-- What there is of peers in the loop. -/
def roster (r : Reactor σ) : Roster where
  rows := r.channels.map (·.row)
  held id := (r.transports.get? id).map (·.handle)
  told := r.chronicle

theorem row_of_channel {c : Channel} (hc : r.channel? i = some c) : r.roster.rows[i]? = some c.row := by
  have hrow : (r.channels.map (·.row))[i]? = (r.channels[i]?).map (·.row) := List.getElem?_map
  exact hrow.trans (congrArg (Option.map _) hc)

theorem exists_channel_of_row {row : Roster.Row} (hrow : r.roster.rows[i]? = some row) :
    ∃ c, r.channel? i = some c ∧ c.row = row := by
  obtain ⟨c, hc, heq⟩ := Option.map_eq_some_iff.1 (List.getElem?_map.symm.trans hrow)
  exact ⟨c, hc, heq⟩

/-- Channel `i` routes no messages, if there is such a channel. -/
def Idles (r : Reactor σ) (i : Nat) : Prop := ∀ c, r.channel? i = some c → c.routes = false

theorem Idles.row (h : r.Idles i) : ∀ row, r.roster.rows[i]? = some row → row.routes = false := by
  intro row hrow
  obtain ⟨c, hc, rfl⟩ := exists_channel_of_row hrow
  exact h c hc

theorem roster_alone (h : r.Alone i) : r.roster.Alone i := by
  intro id g hheld hi
  obtain ⟨t, ht, rfl⟩ := Option.map_eq_some_iff.1 hheld
  exact h id ⟨t, ht, hi⟩

/-! ## What changes no list -/

theorem roster_congr (hchannels : r'.channels = r.channels) (htransports : r'.transports = r.transports)
    (hemitted : r'.service.emitted = r.service.emitted) : r'.roster = r.roster := by
  rw [roster, roster, hchannels, htransports, chronicle_congr hemitted]

/-- A channel's fields may change otherwise. -/
theorem rows_updateChannel (r : Reactor σ) (i : Nat) {f : Channel → Channel} {g : Roster.Row → Roster.Row}
    (hf : ∀ c, r.channel? i = some c → (f c).row = g c.row) :
    (r.updateChannel i f).roster.rows = r.roster.rows.modify i g := by
  refine List.ext_getElem? fun j => ?_
  simp only [roster, updateChannel, List.getElem?_map, List.getElem?_modify]
  by_cases hij : i = j
  · subst hij
    cases hc : r.channels[i]? with
    | none => rfl
    | some c => simp [hf c hc]
  · simp [hij]

theorem roster_updateChannel (r : Reactor σ) (i : Nat) {f : Channel → Channel}
    (hf : ∀ c, r.channel? i = some c → (f c).row = c.row) : (r.updateChannel i f).roster = r.roster := by
  have hrows := rows_updateChannel r i (g := id) hf
  rw [List.modify_id] at hrows
  exact congrArg (Roster.mk · _ _) hrows

/-- A channel that routes no messages routes none unless it is opened. -/
theorem roster_setState {state : ChannelState} (hidles : r.Idles i) (hstate : state ≠ .opened) :
    (r.setState i state).roster = r.roster := by
  refine roster_updateChannel r i fun c hc => ?_
  have hroutes : ({ c with state := state } : Channel).routes = c.routes := by
    rw [hidles c hc]
    simp [Channel.routes, hstate]
  exact congrArg (Roster.Row.mk · _) hroutes

variable [Host σ]

omit [Host σ] in
theorem roster_idle (h : r.Idle r') : r'.roster = r.roster :=
  roster_congr h.channels h.transports (emitted_of_plays h.plays)

omit [Host σ] in
@[simp] theorem roster_dropTimer (r : Reactor σ) (i : Nat) : (r.dropTimer i).roster = r.roster := by
  unfold dropTimer
  split
  · exact roster_updateChannel _ i fun _ _ => rfl
  · rfl

@[simp] theorem roster_armTimer (r : Reactor σ) (i : Nat) (delay : Duration) (task : Task) :
    (r.armTimer i delay task).roster = r.roster := by
  refine Eq.trans ?_ (roster_dropTimer r i)
  exact roster_updateChannel _ i fun _ _ => rfl

@[simp] theorem roster_scheduleReconnect (r : Reactor σ) (i : Nat) :
    (r.scheduleReconnect i).roster = r.roster := by
  unfold scheduleReconnect
  split
  · exact roster_armTimer r i _ _
  · rfl

@[simp] theorem roster_releaseSocket (r : Reactor σ) (i : Nat) : (r.releaseSocket i).roster = r.roster := by
  unfold releaseSocket
  split
  · exact roster_updateChannel r i fun _ _ => rfl
  · rfl

@[simp] theorem roster_applyKeepAlive (r : Reactor σ) (d : Descriptor) :
    (r.applyKeepAlive d).roster = r.roster := by
  unfold applyKeepAlive
  split <;> rfl

@[simp] theorem roster_emit (r : Reactor σ) (e : Event) : (r.emit e).roster = r.roster.tell e := by
  rw [roster, channels_emit, transports_emit, chronicle_emit]
  rfl

theorem shifts_emitAll (r : Reactor σ) (events : List Event) :
    r.roster.Shifts (r.emitAll events).roster := by
  induction events generalizing r with
  | nil => exact .refl _
  | cons e rest ih => exact .trans (.single (roster_emit r e ▸ .tell e)) (ih _)

omit [Host σ] in
/-- What is changed of a transport is not its handle. -/
theorem roster_modify (r : Reactor σ) (id : TransportId) {f : Transport → Transport}
    (hf : ∀ t, (f t).handle = t.handle) :
    roster { r with transports := r.transports.modify id f } = r.roster := by
  have hheld : (fun id' => ((r.transports.modify id f).get? id').map (·.handle)) = r.roster.held := by
    funext id'
    simp only [roster, Arena.get?_modify]
    by_cases hid : id' = id
    · simp [hid, Function.comp_def, hf]
    · simp [hid]
  exact congrArg (Roster.mk _ · _) hheld

/-! ## Losing and closing -/

omit [Host σ] in
/-- A channel without transports may open or close. -/
theorem shifts_turn (halone : r.Alone i) {f : Channel → Channel}
    (hf : ∀ c, (f c).peers = c.peers ∨ (f c).peers = []) :
    r.roster.Shifts (r.updateChannel i f).roster := by
  cases hc : r.channel? i with
  | none =>
    rw [roster_updateChannel r i fun c hsome => by simp [hc] at hsome]
    exact .refl _
  | some c =>
    have hrow := row_of_channel hc
    have hrows : (r.updateChannel i f).roster.rows = r.roster.rows.set i (f c).row := by
      obtain ⟨hlt, hat⟩ := List.getElem?_eq_some_iff.1 hc
      refine List.ext_getElem? fun j => ?_
      simp only [roster, updateChannel, List.getElem?_map, List.getElem?_modify, List.getElem?_set,
        List.length_map]
      by_cases hij : i = j
      · subst hij
        simp [hlt, hat]
      · simp [hij]
    have hturned : (r.updateChannel i f).roster = { r.roster with rows := r.roster.rows.set i (f c).row } :=
      congrArg (Roster.mk · _ _) hrows
    exact hturned ▸ .single (.turn hrow (roster_alone halone) (hf c))

omit [Host σ] in
theorem shifts_setState (halone : r.Alone i) (state : ChannelState) :
    r.roster.Shifts (r.setState i state).roster := by
  have hturned : r.roster.Shifts (r.updateChannel i ({ · with state := state })).roster :=
    shifts_turn halone fun _ => .inl rfl
  exact hturned

theorem roster_afterLoss (r : Reactor σ) (i : Nat) (status : Status) :
    (r.afterLoss i status).roster = r.roster := by
  have hlapsed : ∀ c, r.channel? i = some c → c.mask.isClient = true →
      (r.lapsed i status).roster = r.roster := by
    intro c hc hclient
    let r₁ := r.updateChannel i ({ · with lastStatus := status })
    have hidles : r₁.Idles i := by
      intro c' hc'
      obtain rfl : { c with lastStatus := status } = c' := by simpa [r₁, hc] using hc'
      exact Channel.routes_of_client hclient
    exact (roster_setState hidles (by decide)).trans (roster_updateChannel r i fun _ _ => rfl)
  exact afterLoss_cases rfl hlapsed fun c hc hclient _ =>
    (roster_scheduleReconnect _ i).trans (hlapsed c hc hclient)

/-- A loss is told, and the transport and its peer go. -/
theorem roster_parted (r : Reactor σ) (id : TransportId) (t : Transport) (status : Status) :
    (r.parted id t status).roster = r.roster.lose id t.handle status := by
  let r₁ : Reactor σ := { (r.unwatch t.descriptor).shutdownSocket t.descriptor with
    service := r.service.updateConnection t.handle (·.close status) }
  let r₂ := r₁.emit (.connectionLost t.handle.channel status t.handle)
  have htold : r₂.roster = r.roster.tell (.connectionLost t.handle.channel status t.handle) :=
    roster_emit r₁ _
  let r₃ : Reactor σ := { r₂ with transports := (r₂.transports.remove id).2 }.closeSocket t.descriptor
  have hheld : r₃.roster.held = fun id' => if id' = id then none else r.roster.held id' := by
    funext id'
    have hget : r₃.roster.held id' = ((r₂.transports.remove id).2.get? id').map (·.handle) := rfl
    have hheld₂ : r₂.roster.held = r.roster.held := congrArg (·.held) htold
    rw [hget, Arena.get?_remove, ← hheld₂]
    split <;> rfl
  have hrows : (r.parted id t status).roster.rows = r₃.roster.rows.modify t.handle.channel
      fun row => { row with peers := row.peers.filter (·.2 ≠ id) } :=
    rows_updateChannel r₃ t.handle.channel fun _ _ => rfl
  have hrows₃ : r₃.roster.rows = r.roster.rows := congrArg (·.rows) htold
  have hparted : (r.parted id t status).roster =
      ⟨(r.parted id t status).roster.rows, r₃.roster.held, r₂.roster.told⟩ := rfl
  rw [hparted, hrows, hrows₃, hheld, htold]
  rfl

theorem shifts_loseTransport (r : Reactor σ) (id : TransportId) (status : Status) :
    r.roster.Shifts (r.loseTransport id status).roster := by
  cases ht : r.transports.get? id with
  | none =>
    rw [loseTransport_of_none ht]
    exact .refl _
  | some t =>
    rw [loseTransport_of_some ht, roster_afterLoss, roster_parted]
    exact .single (.lose status (congrArg (Option.map _) ht))

omit [Host σ] in
/-- The list of a channel without transports is empty already when it is emptied. -/
theorem shifts_emptied (halone : r.Alone i) :
    r.roster.Shifts ((r.updateChannel i ({ · with peers := [] })).setState i .closed).roster := by
  have halone₁ : (r.updateChannel i ({ · with peers := [] })).Alone i := halone
  exact (shifts_turn halone fun _ => .inr rfl).trans (shifts_setState halone₁ .closed)

/-! ## Opening -/

theorem shifts_openFailed (hidles : r.Idles i) (status : Status) :
    r.roster.Shifts (r.openFailed i status).roster := by
  let r₁ := ((r.dropTimer i).releaseSocket i).updateChannel i
    ({ · with pendingOpen := false, lastStatus := status })
  have hreleased : r₁.roster = ((r.dropTimer i).releaseSocket i).roster :=
    roster_updateChannel _ i fun _ _ => rfl
  have hsame : r₁.roster = r.roster := by
    rw [hreleased, roster_releaseSocket, roster_dropTimer]
  have hidles₁ : r₁.Idles i := by
    intro c' hc'
    simp only [r₁, channel?_updateChannel_self, channel?_releaseSocket, channel?_dropTimer,
      Option.map_map] at hc'
    obtain ⟨c, hc, rfl⟩ := Option.map_eq_some_iff.1 hc'
    exact hidles c hc
  have htold : r.roster.Shifts
      ((r.givenUp i status).emit (.connectResponse i status none)).roster := by
    have hgiven : (r.givenUp i status).roster = r.roster :=
      (roster_setState hidles₁ (by decide)).trans hsame
    rw [roster_emit, hgiven]
    exact .single (.tell _)
  refine openFailed_cases (fun _ => .refl _) (fun _ _ _ => htold) fun _ _ _ => ?_
  rwa [roster_scheduleReconnect]

/-- A new transport is held. -/
theorem roster_addTransport (hsound : r.transports.Sound) {mask : ChannelMask} {d : Descriptor}
    (hfits : (r.addTransport i mask d).2.transports.Fits) :
    (r.addTransport i mask d).2.roster =
      r.roster.take (r.addTransport i mask d).1.id (r.addTransport i mask d).1 := by
  have hheld : (r.addTransport i mask d).2.roster.held =
      (r.roster.take (r.addTransport i mask d).1.id (r.addTransport i mask d).1).held := by
    funext id
    refine (congrArg (Option.map (·.handle)) (get?_addTransport hsound hfits id)).trans ?_
    simp only [Roster.take]
    split <;> rfl
  exact congrArg (Roster.mk _ · _) hheld

theorem held_addTransport (hsound : r.transports.Sound) {mask : ChannelMask} {d : Descriptor}
    (hfits : (r.addTransport i mask d).2.transports.Fits) :
    r.roster.held (r.addTransport i mask d).1.id = none := by
  have hnone : r.transports.get? (r.addTransport i mask d).1.id = none :=
    Arena.get?_of_slot_eq hsound hfits rfl
  exact congrArg (Option.map _) hnone

theorem shifts_addTransport (hidles : r.Idles i) (hsound : r.transports.Sound) {mask : ChannelMask}
    {d : Descriptor} (hfits : (r.addTransport i mask d).2.transports.Fits) :
    r.roster.Shifts (r.addTransport i mask d).2.roster := by
  rw [roster_addTransport hsound hfits]
  exact .single (.take (held_addTransport hsound hfits) hidles.row)

theorem shifts_connected (hclient : ∀ c, r.channel? i = some c → c.mask.isClient = true)
    (hsound : r.transports.Sound) {mask : ChannelMask} {d : Descriptor}
    (hfits : (r.connected i mask d).transports.Fits) :
    r.roster.Shifts (r.connected i mask d).roster := by
  let r₁ := if mask.isTcp then (r.dropTimer i).applyKeepAlive d else r.dropTimer i
  let r₂ := (r₁.addTransport i mask d).2.updateChannel i ({ · with lastStatus := Status.ok })
  have hsame : r₁.roster = r.roster := by
    by_cases htcp : mask.isTcp = true <;> simp [r₁, htcp]
  have htransports : r₁.transports = r.transports := by
    by_cases htcp : mask.isTcp = true <;> simp [r₁, htcp]
  have hclient₁ : ∀ c, r₁.channel? i = some c → c.mask.isClient = true := by
    intro c' hc'
    have hchannel : r₁.channel? i = (r.channel? i).map ({ · with timer := none }) := by
      by_cases htcp : mask.isTcp = true <;> simp [r₁, htcp]
    obtain ⟨c, hc, rfl⟩ := Option.map_eq_some_iff.1 (hchannel.symm.trans hc')
    exact hclient c hc
  have hconnected : r.connected i mask d = (r₂.setState i .opened).emit
      (.connectResponse i Status.ok (some (r₁.addTransport i mask d).1)) := rfl
  rw [hconnected, transports_emit] at hfits
  have hadded : r₂.roster = (r₁.addTransport i mask d).2.roster := roster_updateChannel _ i fun _ _ => rfl
  have hopened : (r₂.setState i .opened).roster = r₂.roster := by
    refine roster_updateChannel r₂ i fun c' hc' => ?_
    obtain ⟨c, hc, rfl⟩ := exists_of_updateChannel hc'
    have hc₁ : c.mask.isClient = true := hclient₁ c hc
    simp [Channel.row, Channel.routes, hc₁]
  rw [hconnected, roster_emit, hopened, hadded, ← hsame]
  refine .trans ?_ (.single (.tell _))
  exact shifts_addTransport (fun c hc => Channel.routes_of_client (hclient₁ c hc)) (htransports ▸ hsound) hfits

/-- A client that waited for its socket is connected. -/
theorem shifts_finished (hclient : ∀ c, r.channel? i = some c → c.mask.isClient = true)
    (hsound : r.transports.Sound) {mask : ChannelMask} {d : Descriptor}
    (hfits : ((r.unbound i d).connected i mask d).transports.Fits) :
    r.roster.Shifts ((r.unbound i d).connected i mask d).roster := by
  have hunbound : (r.unbound i d).roster = r.roster := roster_updateChannel _ i fun _ _ => by rfl
  have hclient₁ : ∀ c, (r.unbound i d).channel? i = some c → c.mask.isClient = true := by
    intro c' hc'
    obtain ⟨c, hc, rfl⟩ := exists_of_updateChannel hc'
    exact hclient c hc
  exact hunbound ▸ shifts_connected (r := r.unbound i d) hclient₁ hsound hfits

omit [Host σ] in
/-- A server that has its socket is open. -/
theorem shifts_bound (halone : r.Alone i) (d : Descriptor) : r.roster.Shifts (r.bound i d).roster := by
  let r₁ := (r.watchFor d (.channel i) .read).updateChannel i ({ · with socket := some d, lastStatus := Status.ok })
  have hbound : r₁.roster = r.roster := roster_updateChannel _ i fun _ _ => by rfl
  have halone₁ : r₁.Alone i := alone_congr rfl halone
  exact hbound ▸ shifts_setState halone₁ .opened

/-- An open begins from a closed channel. -/
theorem roster_begun (hclosed : ∀ c, r.channel? i = some c → c.state = .closed) (mask : ChannelMask) :
    (r.begun i mask).roster = r.roster := by
  let r₁ := r.updateChannel i ({ · with mask := mask, pendingOpen := true, lastStatus := Status.ok })
  have hsame : r₁.roster = r.roster := roster_updateChannel r i fun c hc => by
    simp [Channel.row, Channel.routes, hclosed c hc]
  have hidles : r₁.Idles i := by
    intro c' hc'
    obtain ⟨c, hc, rfl⟩ := exists_of_updateChannel hc'
    simp [Channel.routes, hclosed c hc]
  have hopening : (r₁.setState i .opening).roster = r.roster := (roster_setState hidles (by decide)).trans hsame
  unfold begun
  split
  · exact (roster_armTimer _ i _ _).trans hopening
  · exact hopening

/-! ## Serving -/

theorem shifts_accepted (hidles : r.Idles i) (hsound : r.transports.Sound) {mask : ChannelMask}
    {d : Descriptor} (hfits : (r.accepted i mask d).transports.Fits) :
    r.roster.Shifts (r.accepted i mask d).roster := by
  let r₁ := r.applyKeepAlive d
  have hfits₁ : (r₁.addTransport i mask d).2.transports.Fits := by
    simpa only [accepted, transports_emit] using hfits
  have hidles₁ : r₁.Idles i := fun c hc => hidles c ((channel?_applyKeepAlive r d i).symm.trans hc)
  have hsound₁ : r₁.transports.Sound := (transports_applyKeepAlive r d).symm ▸ hsound
  simp only [accepted, roster_emit]
  rw [← roster_applyKeepAlive r d]
  exact (shifts_addTransport hidles₁ hsound₁ hfits₁).trans (.single (.tell _))

omit [Host σ] in
/-- A peer is unknown as long as no transport is held under what the list has for it. -/
theorem held_of_peerHandle? {peer : SocketAddress} (hunknown : r.peerHandle? i peer = none) {c : Channel}
    (hc : r.channel? i = some c) {id : TransportId} (hid : c.peers.lookup peer = some id) :
    r.roster.held id = none := by
  simp only [peerHandle?, hc, hid, Option.bind_eq_bind, Option.bind_some, Option.pure_def] at hunknown
  have hnone : r.transports.get? id = none := by
    cases ht : r.transports.get? id with
    | none => rfl
    | some t => simp [ht] at hunknown
  exact congrArg (Option.map _) hnone

theorem transports_introduced (r : Reactor σ) (i : Nat) (mask : ChannelMask) (d : Descriptor)
    (peer : SocketAddress) :
    (r.introduced i mask d peer).transports = (r.addTransport i mask d).2.transports :=
  transports_emit _ _

/-- A new peer is held, listed and announced. -/
theorem roster_introduced (hsound : r.transports.Sound) {mask : ChannelMask} {d : Descriptor}
    {peer : SocketAddress} (hfits : (r.introduced i mask d peer).transports.Fits) :
    (r.introduced i mask d peer).roster =
      ((r.roster.take (r.addTransport i mask d).1.id (r.addTransport i mask d).1).list i peer
        (r.addTransport i mask d).1.id).tell
          (.connectResponse i Status.ok (some (r.addTransport i mask d).1)) := by
  have hfits₁ : (r.addTransport i mask d).2.transports.Fits := by
    rwa [transports_introduced] at hfits
  have hrows := rows_updateChannel (r.addTransport i mask d).2 i
    (f := fun c => { c with
      peers := (peer, (r.addTransport i mask d).1.id) :: c.peers.filter (·.1 ≠ peer) })
    (g := fun row => { row with
      peers := (peer, (r.addTransport i mask d).1.id) :: row.peers.filter (·.1 ≠ peer) }) fun _ _ => rfl
  rw [roster_addTransport hsound hfits₁] at hrows
  rw [introduced, roster_emit]
  refine congrArg (Roster.tell · _) ?_
  have hadded := roster_addTransport hsound hfits₁
  exact (congrArg (Roster.mk · _ _) hrows).trans (congrArg (Roster.mk _ · _) (congrArg (·.held) hadded))

/-- **A new peer of a datagram server** is greeted with a connection, and told. -/
theorem shifts_introduced {c : Channel} (hc : r.channel? i = some c) (hroutes : c.routes = true)
    (hsound : r.transports.Sound) {mask : ChannelMask} (hudp : mask.isUdp = true) {d : Descriptor}
    {peer : SocketAddress} (hunknown : r.peerHandle? i peer = none)
    (hfits : (r.introduced i mask d peer).transports.Fits) :
    r.roster.Shifts (r.introduced i mask d peer).roster := by
  have hfits₁ : (r.addTransport i mask d).2.transports.Fits := by
    rwa [transports_introduced] at hfits
  rw [roster_introduced hsound hfits]
  have hgreets : r.roster.Shift _ := .greet (h := (r.addTransport i mask d).1)
    (held_addTransport hsound hfits₁) (row_of_channel hc) hroutes hudp
    fun id hid => held_of_peerHandle? hunknown hc hid
  exact (Roster.Shifts.single hgreets).trans (.single (.tell _))

theorem shifts_unpacked (r : Reactor σ) (id : TransportId) (t : Transport) :
    r.roster.Shifts (r.unpacked id t).roster := by
  have hreceived : (r.received id t).roster = r.roster := roster_modify r id fun _ => rfl
  rw [← hreceived]
  exact shifts_emitAll _ _

theorem Seek.roster_eq (h : Seek i r r') : r'.roster = r.roster := by
  have hinquiring : (r.inquiring i).roster = r.roster := roster_updateChannel r i fun _ _ => rfl
  cases h with
  | retarget hc h => exact roster_updateChannel r i fun _ _ => rfl
  | refresh hc => exact roster_updateChannel r.now.2 i fun _ _ => by rfl
  | inquire hc hdirty h => exact hinquiring
  | unanswered hc hdirty h => exact Eq.trans (roster_updateChannel _ i fun _ _ => rfl) hinquiring

/-! ## Chores -/

section
variable {T : Terms}

/-- **A chore shifts**, in a row from rest. -/
theorem Chore.shifts (h : Chore T i r r') (hrests : T.rests) (hsound : r.transports.Sound)
    (hfits : r'.transports.Fits) : r.roster.Shifts r'.roster := by
  have hsame : ∀ {r' : Reactor σ}, r'.roster = r.roster → r.roster.Shifts r'.roster := fun heq => heq ▸ .refl _
  have htold : ∀ e, r.roster.Shifts (r.emit e).roster := fun e => roster_emit r e ▸ .single (.tell e)
  have hown : ∀ {P : Channel → Prop} {c}, r.channel? i = some c → P c → ∀ c', r.channel? i = some c' → P c' :=
    fun hc hP c' hc' => Option.some.inj (hc.symm.trans hc') ▸ hP
  cases h with
  | ask h => exact .refl _
  | drop => exact hsame (roster_dropTimer r i)
  | settle => exact hsame (roster_updateChannel r i fun _ _ => rfl)
  | release => exact hsame (roster_releaseSocket r i)
  | port port => exact hsame (roster_updateChannel r i fun _ _ => rfl)
  | seek hseeks h => exact hsame h.roster_eq
  | answer hhears ha hc haccepts => exact hsame (roster_updateChannel r _ fun _ _ => rfl)
  | begin hopens hvalid hc hbare =>
    exact hsame (roster_begun (fun c' hc' => ((hbare hrests).channel c' hc').1) _)
  | fail h hopening => exact shifts_openFailed (fun c hc => Channel.routes_of_opening (hopening hrests c hc)) _
  | @connect c target d w hc hclient h =>
    exact shifts_connected (r := { r with world := w }) (hown hc hclient) hsound hfits
  | connecting hc hclient h hbare => exact hsame (roster_updateChannel _ i fun _ _ => by rfl)
  | @finish c d w hc hclient hsocket h =>
    exact shifts_finished (r := { r with world := w }) (hown hc hclient) hsound hfits
  | @bind c address d w hc hserver h hbare =>
    have halone : { r with world := w }.Alone i := alone_congr rfl (hbare hrests).alone
    exact shifts_bound halone d
  | @accept c d d' address w hc htcp h =>
    have hidles : r.Idles i := hown hc (by simp [Channel.routes, htcp])
    exact shifts_accepted (r := { r with world := w }) hidles hsound hfits
  | packet hrelays hpeer payload => exact htold _
  | @greet c server peer d w hrelays hunknown h payload =>
    rw [transports_emit] at hfits
    rw [roster_emit]
    refine .trans ?_ (.single (.tell _))
    exact shifts_introduced (r := { r with world := w }) hrelays.channel hrelays.routes hsound
      (Channel.isUdp_of_routes hrelays.routes (hrelays.valid hrests)) hunknown hfits
  | read ht hi hok => exact shifts_unpacked r _ _
  | broken ht hi hfailed => exact (shifts_unpacked r _ _).trans (shifts_loseTransport _ _ _)
  | flush now id => exact hsame (roster_idle (idle_flushTransport r now id))
  | lose ht hi status => exact shifts_loseTransport r _ status
  | empty halone => exact shifts_emptied (halone hrests)
  | closing => exact htold _
  | renew ht hc => exact hsame (roster_modify r _ fun _ => rfl)
  | script timer cancelled =>
    have hidle : r.Idle { r with
        service := (Service.runScript (Application.onTimer timer cancelled r.world) r.service).1
        world := (Service.runScript (Application.onTimer timer cancelled r.world) r.service).2 } :=
      ⟨rfl, rfl, Service.plays_runScript _ _⟩
    exact hsame (roster_idle hidle)

/-- So does a row of them, if the slots can be named to its end. -/
theorem Chores.shifts (h : Chores T r r') (hrests : T.rests) (hsound : r.transports.Sound) :
    r'.transports.Fits → r.roster.Shifts r'.roster :=
  h.keeps_fitting (P := fun r' => r.roster.Shifts r'.roster)
    (fun hchore hsound hfits hr => hr.trans (hchore.shifts hrests hsound hfits)) hsound (.refl _)

end

/-! ## From rest to rest -/

variable {due : List (Expired Task)}

theorem shifts_perform (hr : r.AtRest due) (c : Command) (hfits₀ : r.transports.Fits)
    (hfits : (r.perform c).transports.Fits) : r.roster.Shifts (r.perform c).roster :=
  (chores_perform (hr.admits_rested hfits₀ c)).shifts trivial hr.sound hfits

theorem shifts_act (hr : r.AtRest due) {a : Act} (ha : a.isTimer = false) (hfits₀ : r.transports.Fits) :
    (r.act a).transports.Fits → r.roster.Shifts (r.act a).roster :=
  act_cases (T := .rested) ha (fun _ => trivial) (fun _ => hr.ripe hfits₀)
    (fun _ => roster_idle (idle_waitTimeout r) ▸ .refl _) (fun d _ => roster_idle (idle_await r d) ▸ .refl _)
    (fun ready _ => roster_idle (idle_resetInterrupter r ready) ▸ .refl _)
    fun hchores => hchores.shifts trivial hr.sound

theorem shifts_fire (hr : r.AtRest due) {e : Expired Task} (he : e ∈ due) (hfits₀ : r.transports.Fits)
    (hfits : (r.fire e).transports.Fits) : r.roster.Shifts (r.fire e).roster := by
  rcases chores_fire (hr.yields_rested hfits₀ he) with hchores | ⟨i, c, -, -, -, hchores⟩
  · exact hchores.shifts trivial hr.sound hfits
  · have htaken : (r.updateChannel i ({ · with timer := none })).roster = r.roster :=
      roster_updateChannel r i fun _ _ => rfl
    exact htaken ▸ hchores.shifts trivial hr.sound hfits

/-! ## From start to stop -/

theorem shifts_closed (hsound : r.transports.Sound) (hfits : r.closed.transports.Fits) :
    r.roster.Shifts r.closed.roster :=
  have hfits₀ : r.transports.Fits := (trail_closed r).fits hfits
  (chores_closed (fun _ => trivial) (.inl hfits₀)).shifts (T := .rested) trivial hsound hfits

omit [Host σ] in
theorem sound_new (s : Service) (w : σ) (endpoints : List Endpoint) :
    (Reactor.new s w endpoints).roster.Sound := by
  intro i row hrow
  obtain ⟨c, hc, rfl⟩ := exists_channel_of_row hrow
  obtain ⟨e, rfl⟩ := exists_endpoint_of_new hc
  exact ⟨List.nodup_nil, List.nodup_nil, by simp [Channel.row, Channel.routes, Channel.ofEndpoint],
    by simp [Channel.row, Channel.routes, Channel.ofEndpoint], fun _ => rfl⟩

end Reactor

namespace Course

variable {σ : Type} [Host σ] {x y : Course σ}

/-- **A step of a run shifts**; a run starts with nothing listed. -/
theorem Step.shifts (h : x.Step y) (hkept : x.reactor.Kept x.due) (hfits : y.reactor.transports.Fits) :
    x.reactor.transports.Fits ∧ x.reactor.roster.Shifts y.reactor.roster ∨
      x.service.running = false ∧ y.reactor.roster.Sound := by
  have hidle : x.reactor.Idle y.reactor →
      x.reactor.transports.Fits ∧ x.reactor.roster.Shifts y.reactor.roster := fun hidle =>
    ⟨hidle.trail.fits hfits, Reactor.roster_idle hidle ▸ .refl _⟩
  cases h with
  | request now q => exact .inl (hidle ⟨rfl, rfl, Service.plays_perform _ now q⟩)
  | dispatch max => exact .inl (hidle ⟨rfl, rfl, Service.plays_dispatch max _ _⟩)
  | world w => exact .inl ⟨hfits, .refl _⟩
  | answer a => exact .inl ⟨hfits, .refl _⟩
  | refresh hrunning => exact .inl (hidle (Reactor.idle_refreshOptions x.reactor))
  | act hrunning ha =>
    have hopens : Reactor.OpensNone x.due x.reactor (x.reactor.act _) := Reactor.opensNone_act x.reactor ha
    have hfits₀ := hopens.trail.fits hfits
    exact .inl ⟨hfits₀, Reactor.shifts_act (hkept.atRest hfits₀) ha hfits₀ hfits⟩
  | @command c rest hrunning hc =>
    have hhandled : Reactor.Handled x.due _ (x.reactor.withCommands rest) _ :=
      Reactor.handled_perform (x.reactor.withCommands rest) c
    have hfits₀ : x.reactor.transports.Fits := hhandled.trail.fits hfits
    exact .inl ⟨hfits₀, Reactor.shifts_perform (hkept.atRest_withCommands hfits₀ rest) c hfits₀ hfits⟩
  | poll hrunning hdue => exact .inl ⟨hfits, .refl _⟩
  | @fire e rest hrunning hdue =>
    have hfits₀ : x.reactor.transports.Fits := (Reactor.trail_fire x.reactor e).fits hfits
    exact .inl ⟨hfits₀, Reactor.shifts_fire (hkept.atRest hfits₀) (by simp [hdue]) hfits₀ hfits⟩
  | stop hrunning hstopping hdue =>
    exact .inl ⟨(Reactor.trail_closed x.reactor).fits hfits, Reactor.shifts_closed hkept.sound hfits⟩
  | start hrunning hdue callback endpoints => exact .inr ⟨hrunning, Reactor.sound_new _ _ _⟩

/-- **Between two handlers every list is right.** -/
theorem Reachable.roster_sound (h : x.Reachable) (hfits : x.reactor.transports.Fits) :
    x.reactor.roster.Sound := by
  obtain ⟨o, w, hsteps⟩ := h
  induction hsteps with
  | refl => exact Reactor.sound_new _ _ _
  | tail hsteps hstep ih =>
    have hkept := Reachable.kept ⟨o, w, hsteps⟩
    rcases hstep.shifts hkept hfits with ⟨hfits₀, hshifts⟩ | ⟨-, hsound⟩
    · exact hshifts.sound (ih hfits₀)
    · exact hsound

end Course

end NetReactor
