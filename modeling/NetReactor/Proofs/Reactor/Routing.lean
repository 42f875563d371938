import NetReactor.Proofs.Reactor.Peers
import NetReactor.Simulation.Mailbox

/-!
# Where messages go

A datagram server takes up to 64 messages in one turn, and the application may play in between; so a run is
looked at between two messages too (`Moment`). **The first message of a peer announces a connection of its own and
comes right after**; every further one, on the server's socket or on the peer's own, is told once and of that
same connection, until the loss of it is told (`Moment.Routed`).
-/

namespace NetReactor

namespace Transport

variable {σ : Type} [Sockets σ]

/-- Messages are taken from a socket one after the other, until it has none or the turn is over. -/
inductive Takes (d : Descriptor) : Nat → σ → List Bytes → σ → Prop
  | over (w : σ) : Takes d 0 w [] w
  | dry {turns : Nat} {w w' : σ} {e : IoError} (hgot : Sockets.receive d receiveRoom w = (.error e, w')) :
      Takes d (turns + 1) w [] w'
  | message {turns : Nat} {w w' w'' : σ} {data : Bytes} {more : List Bytes}
      (hgot : Sockets.receive d receiveRoom w = (.ok data, w')) (hmore : Takes d turns w' more w'') :
      Takes d (turns + 1) w (data :: more) w''

/-- **Every message that is taken is a packet**, in order. -/
theorem takes_readMessages (d : Descriptor) (turns : Nat) (w : σ) :
    Takes d turns w (readMessages d turns w).1 (readMessages d turns w).2.2 := by
  induction turns generalizing w with
  | zero => exact .over w
  | succ turns ih =>
    unfold readMessages
    rcases hgot : Sockets.receive d receiveRoom w with ⟨e | data, w'⟩
    · exact .dry hgot
    · exact .message hgot (ih w')

end Transport

/-- Whether a channel is open as a datagram server. -/
def Channel.servesDatagrams (c : Channel) : Bool := c.state = .opened && c.mask.isServer && c.mask.isUdp

namespace Reactor

variable {σ : Type} {r : Reactor σ} {i : Nat} {peer : SocketAddress} {h : Handle}

/-- At rest the datagram servers are those that route messages. -/
theorem AtRest.servesDatagrams_eq {due : List (Timer.Expired Task)} (hr : r.AtRest due) {c : Channel}
    (hc : r.channel? i = some c) : c.servesDatagrams = c.routes := by
  by_cases hopened : c.state = .opened
  · have hvalid := (hr.settled hc).valid_of_opened hopened
    simp [Channel.servesDatagrams, Channel.routes, hopened, ChannelMask.isServer_of_isValid hvalid,
      ChannelMask.isUdp_of_isValid hvalid]
  · simp [Channel.servesDatagrams, Channel.routes, hopened]

/-- Messages of a peer go to a transport that the loop holds. -/
def Maps (r : Reactor σ) (i : Nat) (peer : SocketAddress) (h : Handle) : Prop :=
  ∃ c id t, r.channel? i = some c ∧ (peer, id) ∈ c.peers ∧ r.transports.get? id = some t ∧ t.handle = h

theorem maps_iff : r.Maps i peer h ↔ r.roster.Maps i peer h := by
  constructor
  · rintro ⟨c, id, t, hc, hmem, ht, rfl⟩
    exact ⟨c.row, id, row_of_channel hc, hmem, congrArg (Option.map _) ht⟩
  · rintro ⟨row, id, hrow, hmem, hheld⟩
    obtain ⟨c, hc, rfl⟩ := exists_channel_of_row hrow
    obtain ⟨t, ht, rfl⟩ := Option.map_eq_some_iff.1 hheld
    exact ⟨c, id, t, hc, hmem, ht, rfl⟩

/-- Whom a right list names, messages are routed to. -/
theorem peerHandle?_of_maps (hr : r.roster.Sound) (hmaps : r.Maps i peer h) :
    r.peerHandle? i peer = some h := by
  obtain ⟨c, id, t, hc, hmem, ht, rfl⟩ := hmaps
  have hrow := hr i c.row (row_of_channel hc)
  have hlookup : c.peers.lookup peer = some id := by
    cases hid : c.peers.lookup peer with
    | none => exact absurd hmem (hrow.not_mem_of_lookup (by simp [Channel.row, hid]) id)
    | some id' =>
      obtain ⟨before, after, heq, -⟩ := List.lookup_eq_some_iff.1 hid
      have hmem' : (peer, id') ∈ c.peers := by simp [heq]
      have hsame := List.inj_on_of_nodup_map hrow.peers hmem hmem' rfl
      rw [(Prod.mk.inj hsame).2]
  simp [peerHandle?, hc, hlookup, ht]

theorem maps_of_peerHandle? (hpeer : r.peerHandle? i peer = some h) : r.Maps i peer h := by
  simp only [peerHandle?, Option.bind_eq_bind, Option.bind_eq_some_iff, Option.pure_def] at hpeer
  obtain ⟨c, hc, id, hid, t, ht, hh⟩ := hpeer
  obtain ⟨before, after, heq, -⟩ := List.lookup_eq_some_iff.1 hid
  exact ⟨c, id, t, hc, by simp [heq], ht, Option.some.inj hh⟩

variable [Host σ] {mask : ChannelMask} {d d' : Descriptor} {payload : Bytes}

/-- **A message of a peer that has a connection is told once, and nothing else is.** -/
theorem chronicle_onDatagram_of_maps (hr : r.roster.Sound) (hmaps : r.Maps i peer h) :
    (r.onDatagram i mask d peer payload).chronicle = r.chronicle ++ [.packet i h payload] := by
  simp only [onDatagram, peerHandle?_of_maps hr hmaps, chronicle_emit]

theorem onDatagram_of_new (hunknown : r.peerHandle? i peer = none) {server : SocketAddress}
    (hlocal : Host.localAddress d r.world = some server) {w : σ}
    (hbind : Host.bindPeer server peer r.world = (.ok d', w)) :
    r.onDatagram i mask d peer payload = ({ r with world := w }.introduced i mask d' peer).emit
      (.packet i ({ r with world := w }.addTransport i mask d').1 payload) := by
  simp only [onDatagram, hunknown, addPeer, hlocal, hbind]
  rfl

theorem chronicle_introduced (r : Reactor σ) (i : Nat) (mask : ChannelMask) (d : Descriptor)
    (peer : SocketAddress) : (r.introduced i mask d peer).chronicle =
      r.chronicle ++ [.connectResponse i Status.ok (some (r.addTransport i mask d).1)] :=
  chronicle_emit _ _

/-- A new peer's messages go to its new transport. -/
theorem maps_introduced {c : Channel} (hc : r.channel? i = some c) (hsound : r.transports.Sound)
    (hfits : (r.introduced i mask d peer).transports.Fits) :
    (r.introduced i mask d peer).Maps i peer (r.addTransport i mask d).1 := by
  have hfits₁ := hfits
  rw [transports_introduced] at hfits₁
  have hget := get?_addTransport hsound hfits₁ (r.addTransport i mask d).1.id
  rw [if_pos rfl] at hget
  refine ⟨{ c with peers := (peer, (r.addTransport i mask d).1.id) :: c.peers.filter (·.1 ≠ peer) },
    (r.addTransport i mask d).1.id, ⟨(r.addTransport i mask d).1, d, .new, .read⟩, ?_, List.mem_cons_self, ?_,
    rfl⟩
  · rw [introduced, channel?_emit, channel?_updateChannel_self, channel?_addTransport, hc, Option.map_some]
  · rw [transports_introduced]
    exact hget

omit [Host σ] in
theorem Maps.emit [Host σ] (hmaps : r.Maps i peer h) (e : Event) : (r.emit e).Maps i peer h := by
  obtain ⟨c, id, t, hc, hmem, ht, hh⟩ := hmaps
  exact ⟨c, id, t, by rwa [channel?_emit], hmem, by rwa [transports_emit], hh⟩

/-- **The first message of a peer announces its connection and is told right after.** -/
theorem exists_onDatagram_of_new {c : Channel} (hc : r.channel? i = some c)
    (hsound : r.transports.Sound) (hunknown : ∀ h, ¬ r.Maps i peer h) {server : SocketAddress}
    (hlocal : Host.localAddress d r.world = some server) {w : σ}
    (hbind : Host.bindPeer server peer r.world = (.ok d', w))
    (hfits : (r.onDatagram i mask d peer payload).transports.Fits) :
    ∃ h, h.serial = r.service.connections.size ∧ r.transports.get? h.id = none ∧
      (r.onDatagram i mask d peer payload).Maps i peer h ∧ (r.onDatagram i mask d peer payload).chronicle =
        r.chronicle ++ [.connectResponse i Status.ok (some h), .packet i h payload] := by
  have hnone : r.peerHandle? i peer = none := by
    by_contra hknown
    obtain ⟨h, hh⟩ := Option.ne_none_iff_exists'.1 hknown
    exact hunknown h (maps_of_peerHandle? hh)
  let r₁ : Reactor σ := { r with world := w }
  rw [onDatagram_of_new hnone hlocal hbind] at hfits ⊢
  rw [transports_emit] at hfits
  have hfits₁ := hfits
  rw [transports_introduced] at hfits₁
  have hsound₁ : r₁.transports.Sound := hsound
  refine ⟨(r₁.addTransport i mask d').1, rfl, ?_, ?_, ?_⟩
  · exact Arena.get?_of_slot_eq hsound₁ hfits₁ rfl
  · exact (maps_introduced (r := r₁) hc hsound₁ hfits).emit _
  · rw [chronicle_emit, chronicle_introduced, List.append_assoc]
    rfl

/-! ## A peer's own socket -/

@[simp] theorem chronicle_emitAll (r : Reactor σ) (events : List Event) :
    (r.emitAll events).chronicle = r.chronicle ++ events := by
  induction events generalizing r with
  | nil => simp [emitAll]
  | cons e rest ih =>
    refine (ih _).trans ?_
    rw [chronicle_emit, List.append_assoc]
    rfl

theorem chronicle_unpacked (r : Reactor σ) (id : TransportId) (t : Transport) :
    (r.unpacked id t).chronicle =
      r.chronicle ++ (r.arrivals t).map (.packet t.handle.channel t.handle) :=
  chronicle_emitAll _ _

/-- **A loss is told once, and nothing else is.** -/
theorem chronicle_loseTransport {id : TransportId} {t : Transport} (ht : r.transports.get? id = some t)
    (status : Status) : (r.loseTransport id status).chronicle =
      r.chronicle ++ [.connectionLost t.handle.channel status t.handle] := by
  have htold : (r.loseTransport id status).roster.told =
      r.chronicle ++ [.connectionLost t.handle.channel status t.handle] := by
    rw [loseTransport_of_some ht, roster_afterLoss, roster_parted]
    rfl
  exact htold

/-- **Every message that a datagram transport reads is a packet of its connection**, and then the loss is told if
reading failed. -/
theorem chronicle_readTransport {id : TransportId} {t : Transport} (ht : r.transports.get? id = some t)
    (hudp : t.handle.mask.isUdp = true) :
    ∃ messages lost, (∃ w, Transport.Takes t.descriptor Transport.readsPerTurn r.world messages w) ∧
      (r.readTransport id).chronicle = r.chronicle ++
        messages.map (.packet t.handle.channel t.handle) ++ lost ∧
      (lost = [] ∨ ∃ status, lost = [.connectionLost t.handle.channel status t.handle]) := by
  have htakes := Transport.takes_readMessages t.descriptor Transport.readsPerTurn r.world
  have harrivals : r.arrivals t = (Transport.readMessages t.descriptor Transport.readsPerTurn r.world).1 := by
    simp [arrivals, Transport.read, hudp]
  have hkept : ∃ t', (r.unpacked id t).transports.get? id = some t' ∧ t'.handle = t.handle := by
    have hmodified : (r.unpacked id t).transports = (r.received id t).transports := transports_emitAll _ _
    simp [hmodified, received, Arena.get?_modify, ht]
  have hread : ∃ lost, (r.readTransport id).chronicle = (r.unpacked id t).chronicle ++ lost ∧
      (lost = [] ∨ ∃ status, lost = [.connectionLost t.handle.channel status t.handle]) := by
    obtain ⟨t', ht', hsame⟩ := hkept
    rw [readTransport_of_some ht]
    split
    · rename_i e _
      refine ⟨_, chronicle_loseTransport ht' e.status, .inr ⟨e.status, ?_⟩⟩
      rw [hsame]
    · exact ⟨[], by simp, .inl rfl⟩
  obtain ⟨lost, heq, hlost⟩ := hread
  refine ⟨_, lost, ⟨_, htakes⟩, ?_, hlost⟩
  rw [heq, chronicle_unpacked, harrivals]

end Reactor

namespace Course

variable {σ : Type}

/-- A server's socket that is being read: whose it is, and how many more messages the turn may take. -/
structure Reading where
  channel : Nat
  mask : ChannelMask
  socket : Descriptor
  turns : Nat

/-- A run between two handlers, or between two messages that one handler takes. -/
structure Moment (σ : Type) where
  course : Course σ
  reading : Option Reading

def Moment.reactor (m : Moment σ) : Reactor σ := m.course.reactor

variable [Host σ]

/-- The run after one message. -/
def Reading.took (g : Reading) (x : Course σ) (w : σ) (peer : SocketAddress) (payload : Bytes) : Course σ :=
  x.withReactor ({ x.reactor with world := w }.onDatagram g.channel g.mask g.socket peer payload)

/-- The run after all the messages that the handler takes. -/
def Reading.finish (g : Reading) (x : Course σ) : Course σ :=
  x.withReactor (Reactor.receiveDatagrams g.channel g.mask g.socket g.turns x.reactor)

namespace Moment

/-- One thing that happens in a run, with the messages of datagram servers one by one. -/
inductive Next : Moment σ → Moment σ → Prop
  | step {x y : Course σ} (hrunning : x.service.running = true) (hstep : x.Step y) :
      Next ⟨x, none⟩ ⟨y, none⟩
  | begin {x : Course σ} {i : Nat} {c : Channel} {d : Descriptor} (hrunning : x.service.running = true)
      (hc : x.reactor.channel? i = some c) (hsocket : c.socket = some d) (hopened : c.state = .opened)
      (hserver : c.mask.isClient = false) (hudp : c.mask.isTcp = false) :
      Next ⟨x, none⟩ ⟨x, some ⟨i, c.mask, d, Reactor.acceptsPerTurn⟩⟩
  | message {x : Course σ} {g : Reading} {turns : Nat} {payload : Bytes} {peer : SocketAddress} {w : σ}
      (hturns : g.turns = turns + 1)
      (hgot : Host.receiveFrom g.socket receiveRoom x.reactor.world = (.ok (payload, peer), w)) :
      Next ⟨x, some g⟩ ⟨g.took x w peer payload, some { g with turns := turns }⟩
  | dry {x : Course σ} {g : Reading} {turns : Nat} {e : IoError} {w : σ} (hturns : g.turns = turns + 1)
      (hgot : Host.receiveFrom g.socket receiveRoom x.reactor.world = (.error e, w)) :
      Next ⟨x, some g⟩ ⟨x.withReactor { x.reactor with world := w }, none⟩
  | full {x : Course σ} {g : Reading} (hturns : g.turns = 0) : Next ⟨x, some g⟩ ⟨x, none⟩

/-- Any number of things that happen in one run. -/
def Until : Moment σ → Moment σ → Prop := Relation.ReflTransGen Next

/-- What a service can come to, between two handlers or between two messages. -/
def Reachable (m : Moment σ) : Prop := ∃ x : Course σ, x.Reachable ∧ Until ⟨x, none⟩ m

theorem reachable_of_course {x : Course σ} (hx : x.Reachable) : Reachable ⟨x, none⟩ :=
  ⟨x, hx, .refl⟩

theorem Reachable.next {m m' : Moment σ} (hm : m.Reachable) (hnext : m.Next m') : m'.Reachable := by
  obtain ⟨x, hx, huntil⟩ := hm
  exact ⟨x, hx, huntil.tail hnext⟩

/-- **Message by message a reading comes to what the handler comes to.** -/
theorem until_finish (x : Course σ) (g : Reading) : Until ⟨x, some g⟩ ⟨g.finish x, none⟩ := by
  obtain ⟨i, mask, d, turns⟩ := g
  induction turns generalizing x with
  | zero => exact .single (.full rfl)
  | succ turns ih =>
    unfold Reading.finish Reactor.receiveDatagrams
    rcases hgot : Host.receiveFrom d receiveRoom x.reactor.world with ⟨e | ⟨payload, peer⟩, w⟩
    · exact .single (.dry rfl hgot)
    · exact .head (.message rfl hgot) (ih _)

/-- A reading goes on in a handler of an open datagram server. -/
structure Goes (g : Reading) (x : Course σ) : Prop where
  after : (g.finish x).Reachable
  routes : ∃ c, x.reactor.channel? g.channel = some c ∧ c.mask = g.mask ∧ c.routes = true
  sound : x.reactor.transports.Sound
  valid : x.reactor.transports.Fits → g.mask.isValid = true
  roster : x.reactor.transports.Fits → x.reactor.roster.Sound

/-- A moment is of a reachable run. -/
def Sane (m : Moment σ) : Prop :=
  match m.reading with
  | none => m.course.Reachable
  | some g => Goes g m.course

variable {m m' : Moment σ} {i : Nat} {peer : SocketAddress} {h : Handle}

theorem Sane.roster (hm : m.Sane) (hfits : m.reactor.transports.Fits) : m.reactor.roster.Sound := by
  obtain ⟨x, _ | g⟩ := m
  · exact Course.Reachable.roster_sound hm hfits
  · exact Goes.roster hm hfits

theorem goes_of_begin {x : Course σ} (hx : x.Reachable) (hrunning : x.service.running = true) {c : Channel}
    {d : Descriptor} (hc : x.reactor.channel? i = some c) (hsocket : c.socket = some d)
    (hopened : c.state = .opened) (hserver : c.mask.isClient = false) (hudp : c.mask.isTcp = false) :
    Goes ⟨i, c.mask, d, Reactor.acceptsPerTurn⟩ x where
  after := by
    have hserved : x.reactor.act (.serve ⟨.channel i, true, false, false⟩) =
        Reactor.receiveDatagrams i c.mask d Reactor.acceptsPerTurn x.reactor := by
      simp [Reactor.act, Reactor.serveIfChannel, Reactor.serveChannel, hc, hsocket, hopened, hserver, hudp]
    have hstep := hx.step (.act hrunning (a := .serve ⟨.channel i, true, false, false⟩) rfl)
    rwa [hserved] at hstep
  routes := ⟨c, hc, rfl, by simp [Channel.routes, hopened, hserver, hudp]⟩
  sound := hx.kept.sound
  valid hfits := ((hx.kept.atRest hfits).settled hc).valid_of_opened hopened
  roster hfits := hx.roster_sound hfits

/-- A message is taken in chores, on terms from rest only if the mask is known to be valid. -/
theorem Goes.chores {T : Reactor.Terms} {g : Reading} {x : Course σ} (hg : Goes g x) (hall : ∀ j, T.concerns j)
    (hvalid : T.rests → g.mask.isValid = true) (w : σ) (peer : SocketAddress) (payload : Bytes) :
    Reactor.Chores T { x.reactor with world := w } (g.took x w peer payload).reactor := by
  obtain ⟨c, hc, hmask, hroutes⟩ := hg.routes
  have hrelays : Reactor.Relays T { x.reactor with world := w } g.channel c :=
    ⟨hc, hroutes, hmask ▸ hvalid⟩
  have hchores := Reactor.chores_onDatagram (hall _) hrelays g.socket peer payload
  rwa [hmask] at hchores

/-- A message fits and shifts. -/
theorem Goes.shifts {g : Reading} {x : Course σ} (hg : Goes g x) {w : σ} {payload : Bytes}
    (hfits : (g.took x w peer payload).reactor.transports.Fits) :
    x.reactor.transports.Fits ∧ x.reactor.roster.Shifts (g.took x w peer payload).reactor.roster := by
  have hchores := hg.chores (T := .any) (fun _ => trivial) False.elim w peer payload
  have hfits₀ : x.reactor.transports.Fits := hchores.trail.fits hfits
  have hrested := hg.chores (T := .rested) (fun _ => trivial) (fun _ => hg.valid hfits₀) w peer payload
  have hsound : ({ x.reactor with world := w } : Reactor σ).transports.Sound := hg.sound
  exact ⟨hfits₀, hrested.shifts trivial hsound hfits⟩

theorem Goes.message {g : Reading} {x : Course σ} (hg : Goes g x) {turns : Nat} (hturns : g.turns = turns + 1)
    {payload : Bytes} {w : σ}
    (hgot : Host.receiveFrom g.socket receiveRoom x.reactor.world = (.ok (payload, peer), w)) :
    Goes { g with turns := turns } (g.took x w peer payload) where
  after := by
    have hsame : Reading.finish { g with turns := turns } (g.took x w peer payload) = g.finish x := by
      simp only [Reading.finish, hturns, Reactor.receiveDatagrams, hgot]
      rfl
    rw [hsame]
    exact hg.after
  routes := by
    obtain ⟨c, hc, hmask, hroutes⟩ := hg.routes
    have hrelays : Reactor.Relays .any { x.reactor with world := w } g.channel c := ⟨hc, hroutes, False.elim⟩
    obtain ⟨c', hc', hsame⟩ := Reactor.exists_onDatagram (r := { x.reactor with world := w }) hc g.mask g.socket
      peer payload
    obtain ⟨hmask', hrelays'⟩ := hrelays.of_standing hc' hsame
    exact ⟨c', hc', hmask'.trans hmask, hrelays'.routes⟩
  sound := by
    have hsound : ({ x.reactor with world := w } : Reactor σ).transports.Sound := hg.sound
    exact (hg.chores (T := .any) (fun _ => trivial) False.elim _ _ _).trail.sound hsound
  valid hfits := hg.valid (hg.shifts hfits).1
  roster hfits := (hg.shifts hfits).2.sound (hg.roster (hg.shifts hfits).1)

theorem Next.sane (hnext : m.Next m') (hm : m.Sane) : m'.Sane := by
  cases hnext with
  | step hrunning hstep => exact Course.Reachable.step hm hstep
  | begin hrunning hc hsocket hopened hserver hudp =>
    exact goes_of_begin hm hrunning hc hsocket hopened hserver hudp
  | message hturns hgot => exact Goes.message hm hturns hgot
  | @dry x g turns e w hturns hgot =>
    have hdone : g.finish x = x.withReactor { x.reactor with world := w } := by
      simp only [Reading.finish, hturns, Reactor.receiveDatagrams, hgot]
    exact hdone ▸ Goes.after hm
  | @full x g hturns =>
    have hdone : g.finish x = x := by
      simp only [Reading.finish, hturns, Reactor.receiveDatagrams]
      rfl
    exact hdone ▸ Goes.after hm

/-- **Whatever happens shifts the roster.** -/
theorem Next.shifts (hnext : m.Next m') (hm : m.Sane) (hfits : m'.reactor.transports.Fits) :
    m.reactor.transports.Fits ∧ m.reactor.roster.Shifts m'.reactor.roster := by
  cases hnext with
  | step hrunning hstep =>
    rcases hstep.shifts (Course.Reachable.kept hm) hfits with hshifts | ⟨hstopped, -⟩
    · exact hshifts
    · simp [hrunning] at hstopped
  | begin => exact ⟨hfits, .refl _⟩
  | message hturns hgot => exact Goes.shifts hm hfits
  | dry => exact ⟨hfits, .refl _⟩
  | full => exact ⟨hfits, .refl _⟩

theorem Until.sane (huntil : m.Until m') (hm : m.Sane) : m'.Sane := by
  induction huntil with
  | refl => exact hm
  | tail _ hnext ih => exact hnext.sane ih

theorem Until.shifts (huntil : m.Until m') (hm : m.Sane) :
    m'.reactor.transports.Fits → m.reactor.transports.Fits ∧ m.reactor.roster.Shifts m'.reactor.roster := by
  induction huntil with
  | refl => exact fun hfits => ⟨hfits, .refl _⟩
  | tail huntil hnext ih =>
    intro hfits
    obtain ⟨hfits₁, hshift⟩ := hnext.shifts (Until.sane huntil hm) hfits
    obtain ⟨hfits₀, hshifts⟩ := ih hfits₁
    exact ⟨hfits₀, hshifts.trans hshift⟩

theorem Reachable.sane (hm : m.Reachable) : m.Sane := by
  obtain ⟨x, hx, huntil⟩ := hm
  exact huntil.sane hx

/-- Where the messages of datagram servers' peers go. -/
structure Routed (m : Moment σ) : Prop where
  /-- A datagram server lists each of its peers once, and just the transports that it has. -/
  listed : m.reading = none → ∀ i c, m.reactor.channel? i = some c → c.servesDatagrams = true →
    (c.peers.map Prod.fst).Nodup ∧ (c.peers.map Prod.snd).Nodup ∧
      ∀ id, id ∈ c.peers.map Prod.snd ↔ m.reactor.Live i id
  unlisted : m.reading = none → ∀ i c, m.reactor.channel? i = some c → c.servesDatagrams = false →
    c.peers = []
  /-- The first message of a peer that a socket can be made for announces a new connection. -/
  first : ∀ g peer payload w server d w', m.reading = some g →
    Host.receiveFrom g.socket receiveRoom m.reactor.world = (.ok (payload, peer), w) →
    (∀ h, ¬ m.reactor.Maps g.channel peer h) → Host.localAddress g.socket w = some server →
    Host.bindPeer server peer w = (.ok d, w') → (g.took m.course w peer payload).reactor.transports.Fits →
    ∃ h, h.serial = m.reactor.service.connections.size ∧ m.reactor.transports.get? h.id = none ∧
      (g.took m.course w peer payload).reactor.Maps g.channel peer h ∧
      (g.took m.course w peer payload).reactor.chronicle = m.reactor.chronicle ++
        [.connectResponse g.channel Status.ok (some h), .packet g.channel h payload]
  /-- A further message on the server's socket is told of the peer's connection. -/
  further : ∀ g peer payload w h, m.reading = some g →
    Host.receiveFrom g.socket receiveRoom m.reactor.world = (.ok (payload, peer), w) →
    m.reactor.Maps g.channel peer h →
    (g.took m.course w peer payload).reactor.chronicle =
      m.reactor.chronicle ++ [.packet g.channel h payload]
  /-- And so is every message on the peer's own socket. -/
  own : ∀ i c peer id t, m.reactor.channel? i = some c → (peer, id) ∈ c.peers →
    m.reactor.transports.get? id = some t →
    ∃ messages lost,
      (∃ w, Transport.Takes t.descriptor Transport.readsPerTurn m.reactor.world messages w) ∧
      (m.reactor.readTransport id).chronicle =
        m.reactor.chronicle ++ messages.map (.packet i t.handle) ++ lost ∧
      (lost = [] ∨ ∃ status, lost = [.connectionLost i status t.handle])
  /-- A peer keeps its connection until the loss of it is told. -/
  kept : ∀ m' i peer h, m.Until m' → m'.reactor.transports.Fits → m.reactor.Maps i peer h →
    ∃ new, m'.reactor.chronicle = m.reactor.chronicle ++ new ∧
      (m'.reactor.Maps i peer h ∨ ∃ status, Event.connectionLost i status h ∈ new)

/-- **Between two handlers every list is right.** -/
theorem listed_of_reachable {x : Course σ} (hx : x.Reachable) (hfits : x.reactor.transports.Fits) {c : Channel}
    (hc : x.reactor.channel? i = some c) (hserves : c.servesDatagrams = true) :
    (c.peers.map Prod.fst).Nodup ∧ (c.peers.map Prod.snd).Nodup ∧
      ∀ id, id ∈ c.peers.map Prod.snd ↔ x.reactor.Live i id := by
  have hrow := hx.roster_sound hfits i c.row (Reactor.row_of_channel hc)
  have hroutes : c.routes = true := by
    rw [← (hx.kept.atRest hfits).servesDatagrams_eq hc]
    exact hserves
  refine ⟨hrow.peers, hrow.ids, fun id => (hrow.live hroutes id).trans ?_⟩
  constructor
  · rintro ⟨h, hheld, hi⟩
    obtain ⟨t, ht, rfl⟩ := Option.map_eq_some_iff.1 hheld
    exact ⟨t, ht, hi⟩
  · rintro ⟨t, ht, hi⟩
    exact ⟨t.handle, congrArg (Option.map _) ht, hi⟩

theorem unlisted_of_reachable {x : Course σ} (hx : x.Reachable) (hfits : x.reactor.transports.Fits)
    {c : Channel} (hc : x.reactor.channel? i = some c) (hserves : c.servesDatagrams = false) : c.peers = [] := by
  have hrow := hx.roster_sound hfits i c.row (Reactor.row_of_channel hc)
  rw [(hx.kept.atRest hfits).servesDatagrams_eq hc] at hserves
  exact hrow.idle hserves

/-- **Messages reach the connection of their sender**, and only that. -/
theorem routed_of_reachable (hm : m.Reachable) (hfits : m.reactor.transports.Fits) : m.Routed where
  listed hrest i c hc hserves := by
    obtain ⟨x, reading⟩ := m
    obtain rfl : reading = none := hrest
    exact listed_of_reachable hm.sane hfits hc hserves
  unlisted hrest i c hc hserves := by
    obtain ⟨x, reading⟩ := m
    obtain rfl : reading = none := hrest
    exact unlisted_of_reachable hm.sane hfits hc hserves
  first g peer payload w server d w' hreading hgot hunknown hlocal hbind hfits' := by
    obtain ⟨x, reading⟩ := m
    obtain rfl : reading = some g := hreading
    have hg : Goes g x := hm.sane
    obtain ⟨c, hc, -⟩ := hg.routes
    exact Reactor.exists_onDatagram_of_new (r := { x.reactor with world := w }) hc hg.sound hunknown hlocal
      hbind hfits'
  further g peer payload w h hreading hgot hmaps :=
    Reactor.chronicle_onDatagram_of_maps (r := { m.reactor with world := w }) (hm.sane.roster hfits) hmaps
  own i c peer id t hc hmem ht := by
    have hrow := hm.sane.roster hfits i c.row (Reactor.row_of_channel hc)
    have hheld : m.reactor.roster.held id = some t.handle := congrArg (Option.map _) ht
    obtain ⟨h, hh, rfl⟩ := hrow.exists_held hmem
    obtain rfl : t.handle = h := Option.some.inj (hheld.symm.trans hh)
    exact Reactor.chronicle_readTransport ht (hrow.udp (hrow.routes_of_mem hmem) id _ hheld rfl)
  kept m' i peer h huntil hfits' hmaps := by
    obtain ⟨-, hshifts⟩ := huntil.shifts hm.sane hfits'
    obtain ⟨new, hnew, hkept⟩ := hshifts.keeps (hm.sane.roster hfits) (Reactor.maps_iff.1 hmaps)
    exact ⟨new, hnew, hkept.imp_left Reactor.maps_iff.2⟩

open Simulation in
/-- Two messages of one peer wait. The first one was taken, and announced a connection; the second one is told of
it. -/
theorem routed_amid_messages : ∃ (m m' : Moment Mailbox) (h : Handle), m.Reachable ∧
    m.reactor.transports.Fits ∧ m.Next m' ∧ m.reactor.Maps 0 Mailbox.stranger h ∧
    m.reactor.chronicle = [.connectResponse 0 Status.ok (some h), .packet 0 h [1]] ∧
    m'.reactor.chronicle =
      [.connectResponse 0 Status.ok (some h), .packet 0 h [1], .packet 0 h [2]] ∧ m.Routed := by
  have hnew : (new Options.standard
    (⟨1, [([1], Mailbox.stranger), ([2], Mailbox.stranger)]⟩ : Mailbox)).Reachable := ⟨_, _, .refl⟩
  have hstart := hnew.step (.start rfl rfl 0 [⟨"10.0.0.1", 7⟩])
  have hasked := hstart.step (.request ⟨0⟩ (.openChannel 0 ⟨10⟩))
  have hbound := hasked.step (.command (by rfl) (by rfl))
  have hbegun := (reachable_of_course hbound).next
    (.begin (i := 0) (by rfl) (by rfl) (by rfl) (by rfl) (by rfl) (by rfl))
  have hfirst := hbegun.next (.message (by rfl) (by rfl))
  refine ⟨_, _, ⟨0, ⟨0, 0⟩, 0, ⟨10⟩, some Mailbox.home, none⟩, hfirst, by decide, .message (by rfl) (by rfl),
    ?_, by rfl, by rfl, ?_⟩
  · exact ⟨_, ⟨0, 0⟩, _, by rfl, List.mem_singleton_self _, by rfl, by rfl⟩
  · exact routed_of_reachable hfirst (by decide)

end Moment

end Course

end NetReactor
