import Mathlib.Algebra.Group.Int.Defs
import Mathlib.Algebra.Group.Nat.Defs
import Mathlib.Data.List.Nodup
import Mathlib.Data.List.Perm.Subperm
import NetReactor.Proofs.Reactor.Custody
import NetReactor.Proofs.Reactor.Deeds
import NetReactor.Proofs.Slots.History

/-!
# What is held is watched

Whatever is watched is held by whom it is watched for, whichever numbers the system gives out; that all
that is held is watched too, each once, takes a system that **hands out no descriptor that is open**
(`Kernel`). A descriptor is in hand between the call that grants it and the transport or channel that takes
it over: as long as all that is held is open (`Secure`), a granted one is nobody's, and to watch it takes
nobody's registration away. What is held is then registered once, under its holder, and a transport with
the interest it records (`Custody.Exact`); every handler keeps that. **Distinct descriptors are few enough
for the slots to be named**, so that nothing need be assumed of them.
-/

namespace NetReactor

open Timer (Expired)

/-! ## Held and registered -/

namespace Custody

variable {v v' : Custody} {d : Descriptor} {owner : Owner} {interest : Interest}

/-- The registrations are what is held, each descriptor once, and a transport's has its interest. -/
structure Exact (v : Custody) : Prop where
  once : (v.watch.map (·.descriptor)).Nodup
  owners : ∀ d owner, (∃ interest, ⟨d, owner, interest⟩ ∈ v.watch) ↔ v.Holds d owner
  interests : ∀ {id d interest}, v.held id = some (d, interest) →
    ⟨d, .transport id, interest⟩ ∈ v.watch

/-- Nobody holds the descriptor. -/
def Spare (v : Custody) (d : Descriptor) : Prop := ∀ owner, ¬ v.Holds d owner

/-- **A descriptor has one holder.** -/
theorem Exact.holder (hv : v.Exact) {owner' : Owner} (h : v.Holds d owner) (h' : v.Holds d owner') :
    owner = owner' := by
  obtain ⟨interest, hmem⟩ := (hv.owners d owner).2 h
  obtain ⟨interest', hmem'⟩ := (hv.owners d owner').2 h'
  exact congrArg Registration.token (List.inj_on_of_nodup_map hv.once hmem hmem' rfl)

/-- While neither a channel nor a transport holds any, there is the interrupter's. -/
theorem exact_alone {interest : Interest} (hwatch : v.watch = [⟨Reactor.wakeDescriptor, .interrupter, interest⟩])
    (hholds : ∀ d owner, v.Holds d owner → owner = .interrupter) : v.Exact where
  once := hwatch ▸ List.nodup_singleton _
  owners d owner := by
    rw [hwatch]
    constructor
    · rintro ⟨i, hmem⟩
      obtain ⟨rfl, rfl, -⟩ := Registration.mk.inj (List.mem_singleton.1 hmem)
      rfl
    · intro h
      obtain rfl := hholds d owner h
      obtain rfl : d = Reactor.wakeDescriptor := h
      exact ⟨interest, List.mem_singleton.2 rfl⟩
  interests {id d i} h := nomatch hholds d (.transport id) ⟨i, h⟩

theorem nodup_deregister (h : (v.watch.map (·.descriptor)).Nodup) (d : Descriptor) :
    ((v.watch.deregister d).map (·.descriptor)).Nodup :=
  h.sublist (List.filter_sublist.map _)

/-- A holder is registered for a descriptor that nobody else holds, and holds no other. -/
theorem Exact.register (hv : v.Exact) (owner : Owner) (hwatch : v'.watch = v.watch.register d owner interest)
    (hsame : ∀ e o, o ≠ owner → (v'.Holds e o ↔ v.Holds e o)) (hat : ∀ e, v'.Holds e owner ↔ e = d)
    (hfree : ∀ o, v.Holds d o → o = owner) (hmine : ∀ e, v.Holds e owner → e = d)
    (hheld : ∀ {id e i}, v'.held id = some (e, i) →
      owner = .transport id ∧ e = d ∧ i = interest ∨ owner ≠ .transport id ∧ v.held id = some (e, i)) :
    v'.Exact where
  once := by
    have hnot : d ∉ (v.watch.deregister d).map (·.descriptor) := by simp [Watch.deregister]
    rw [hwatch, Watch.register, List.map_append, List.nodup_append]
    refine ⟨nodup_deregister hv.once d, List.nodup_singleton _, fun e he e' he' heq => hnot ?_⟩
    obtain rfl := List.mem_singleton.1 he'
    exact heq ▸ he
  owners e o := by
    simp only [hwatch, mem_register]
    constructor
    · rintro ⟨i, ⟨hmem, hne⟩ | heq⟩
      · have hbefore := (hv.owners e o).1 ⟨i, hmem⟩
        exact (hsame e o fun ho => hne (hmine e (ho ▸ hbefore))).2 hbefore
      · simp only [Registration.mk.injEq] at heq
        exact heq.2.1 ▸ (hat e).2 heq.1
    · intro h
      by_cases ho : o = owner
      · subst ho
        exact ⟨interest, .inr (by rw [(hat e).1 h])⟩
      · have hbefore := (hsame e o ho).1 h
        obtain ⟨i, hmem⟩ := (hv.owners e o).2 hbefore
        exact ⟨i, .inl ⟨hmem, fun heq : e = d => ho (hfree o (heq ▸ hbefore))⟩⟩
  interests h := by
    rw [hwatch, mem_register]
    rcases hheld h with ⟨rfl, rfl, rfl⟩ | ⟨hne, hbefore⟩
    · exact .inr rfl
    · exact .inl ⟨hv.interests hbefore, fun heq => hne (hfree _ (heq ▸ ⟨_, hbefore⟩)).symm⟩

/-- The one holder of a descriptor lets it go. -/
theorem Exact.deregister (hv : v.Exact) (owner : Owner) (hwatch : v'.watch = v.watch.deregister d)
    (hsame : ∀ e o, o ≠ owner → (v'.Holds e o ↔ v.Holds e o)) (hnone : ∀ e, ¬ v'.Holds e owner)
    (hd : v.Holds d owner) (hmine : ∀ e, v.Holds e owner → e = d)
    (hheld : ∀ {id e i}, v'.held id = some (e, i) →
      owner ≠ .transport id ∧ v.held id = some (e, i)) : v'.Exact where
  once := hwatch ▸ nodup_deregister hv.once d
  owners e o := by
    simp only [hwatch, mem_deregister]
    constructor
    · rintro ⟨i, hmem, hne⟩
      have hbefore := (hv.owners e o).1 ⟨i, hmem⟩
      exact (hsame e o fun ho => hne (hmine e (ho ▸ hbefore))).2 hbefore
    · intro h
      have ho : o ≠ owner := fun ho => hnone e (ho ▸ h)
      have hbefore := (hsame e o ho).1 h
      obtain ⟨i, hmem⟩ := (hv.owners e o).2 hbefore
      exact ⟨i, hmem, fun heq : e = d => ho (hv.holder (heq ▸ hbefore) hd)⟩
  interests h := by
    obtain ⟨hne, hbefore⟩ := hheld h
    refine hwatch ▸ mem_deregister.2 ⟨hv.interests hbefore, fun heq => hne ?_⟩
    exact hv.holder hd (heq ▸ ⟨_, hbefore⟩)

/-- Who holds a descriptor afterwards held it before, and another one than that which went. -/
theorem Exact.of_deregister (hv : v.Exact) (hv' : v'.Exact) (hwatch : v'.watch = v.watch.deregister d)
    {e : Descriptor} (h : v'.Holds e owner) : v.Holds e owner ∧ e ≠ d := by
  obtain ⟨i, hmem⟩ := (hv'.owners e owner).2 h
  obtain ⟨hmem, hne⟩ := mem_deregister.1 (hwatch ▸ hmem)
  exact ⟨(hv.owners e owner).1 ⟨i, hmem⟩, hne⟩

theorem Exact.of_register (hv : v.Exact) (hv' : v'.Exact) {owner' : Owner}
    (hwatch : v'.watch = v.watch.register d owner' interest) {e : Descriptor} (h : v'.Holds e owner) :
    v.Holds e owner ∨ e = d := by
  obtain ⟨i, hmem⟩ := (hv'.owners e owner).2 h
  rcases mem_register.1 (hwatch ▸ hmem) with ⟨hmem, -⟩ | heq
  · exact .inl ((hv.owners e owner).1 ⟨i, hmem⟩)
  · exact .inr (congrArg Registration.descriptor heq)

variable {i : Nat} {id : TransportId}

theorem Exact.bind (hv : v.Exact) (hfree : v.sockets[i]? = some none) (hspare : v.Spare d)
    (interest : Interest) : (v.bind i d interest).Exact := by
  have hlt := (List.getElem?_eq_some_iff.1 hfree).1
  refine hv.register (.channel i) rfl (fun e o ho => holds_set ho _ _) (fun e => ?_)
    (fun o h => absurd h (hspare o)) (fun e h => ?_) fun h => .inr ⟨nofun, h⟩
  · simp [Holds, Custody.bind, List.getElem?_set_self hlt, eq_comm]
  · simp [Holds, hfree] at h

theorem Exact.release (hv : v.Exact) (hd : v.sockets[i]? = some (some d)) : (v.release i d).Exact := by
  have hlt := (List.getElem?_eq_some_iff.1 hd).1
  refine hv.deregister (.channel i) rfl (fun e o ho => holds_set ho _ _) (fun e => ?_) hd
    (fun e => (holds_channel hd).1) fun h => ⟨nofun, h⟩
  simp [Holds, Custody.release, List.getElem?_set_self hlt]

/-- A transport is watched, for the first time or for something else. -/
theorem Exact.hold (hv : v.Exact) (hfree : ∀ o, v.Holds d o → o = .transport id)
    (hmine : ∀ e, v.Holds e (.transport id) → e = d) (interest : Interest) :
    (v.hold id d interest).Exact := by
  refine hv.register (.transport id) rfl (fun e o ho => holds_update ho _ _) (fun e => ?_) hfree
    hmine fun {id' e i} h => ?_
  · simp [Holds, Custody.hold, eq_comm]
  · by_cases hid : id' = id
    · simp only [Custody.hold, if_pos hid, Option.some.injEq, Prod.mk.injEq] at h
      exact .inl ⟨hid ▸ rfl, h.1.symm, h.2.symm⟩
    · simp only [Custody.hold, if_neg hid] at h
      exact .inr ⟨fun heq => hid (Owner.transport.inj heq).symm, h⟩

theorem Exact.drop (hv : v.Exact) (hd : v.held id = some (d, interest)) : (v.drop id d).Exact := by
  refine hv.deregister (.transport id) rfl (fun e o ho => holds_update ho _ _) (fun e => ?_)
    ⟨interest, hd⟩ (fun e => (holds_transport hd).1) fun {id' e i} h => ?_
  · simp [Holds, Custody.drop]
  · by_cases hid : id' = id
    · simp [Custody.drop, hid] at h
    · simp only [Custody.drop, if_neg hid] at h
      exact ⟨fun heq => hid (Owner.transport.inj heq).symm, h⟩

end Custody

/-! ## A system that keeps descriptors apart -/

namespace Host

variable {σ : Type} [Host σ]

/-- A call that closes nothing, or a callback. -/
inductive Use : σ → σ → Prop
  | now (w : σ) : Use w (Host.now w).2
  | connect (stream : Bool) (port : UInt16) (a : SocketAddress) (w : σ) :
      Use w (Host.connect stream port a w).2
  | connectError (d : Descriptor) (w : σ) : Use w (Host.connectError d w).2
  | bindServer (stream : Bool) (a : SocketAddress) (w : σ) : Use w (Host.bindServer stream a w).2
  | accept (d : Descriptor) (w : σ) : Use w (Host.accept d w).2
  | receiveFrom (d : Descriptor) (limit : Nat) (w : σ) : Use w (Host.receiveFrom d limit w).2
  | bindPeer (server peer : SocketAddress) (w : σ) : Use w (Host.bindPeer server peer w).2
  | keepAlive (d : Descriptor) (k : KeepAlive) (w : σ) : Use w (Host.keepAlive d k w)
  | lookUp (l : Lookup) (w : σ) : Use w (Host.lookUp l w).2
  | wait (asked : List (Descriptor × PollBits)) (millis : Nat) (w : σ) :
      Use w (Host.wait asked millis w).2
  | receive (d : Descriptor) (limit : Nat) (w : σ) : Use w (Sockets.receive d limit w).2
  | send (d : Descriptor) (data : Bytes) (w : σ) : Use w (Sockets.send d data w).2
  | shutdown (d : Descriptor) (w : σ) : Use w (Sockets.shutdown d w)
  | onEvent (callback : Nat) (e : Event) (s : Service) (w : σ) :
      Use w (Service.runScript (Application.onEvent callback e w) s).2
  | onTimer (timer : Nat) (cancelled : Bool) (s : Service) (w : σ) :
      Use w (Service.runScript (Application.onTimer timer cancelled w) s).2

/-- A call that hands out a descriptor. -/
inductive Grant : σ → Descriptor → σ → Prop
  | connect {stream : Bool} {port : UInt16} {a : SocketAddress} {w w' : σ} {d : Descriptor} {done : Bool}
      (h : Host.connect stream port a w = (.ok (d, done), w')) : Grant w d w'
  | bindServer {stream : Bool} {a : SocketAddress} {w w' : σ} {d : Descriptor}
      (h : Host.bindServer stream a w = (.ok d, w')) : Grant w d w'
  | accept {listener d : Descriptor} {peer : SocketAddress} {w w' : σ}
      (h : Host.accept listener w = (.ok (some (d, peer)), w')) : Grant w d w'
  | bindPeer {server peer : SocketAddress} {w w' : σ} {d : Descriptor}
      (h : Host.bindPeer server peer w = (.ok d, w')) : Grant w d w'

/-- A call whose answer is known. -/
theorem Use.of_eq {α : Type} {w : σ} {x y : α × σ} (h : Use w x.2) (heq : x = y) : Use w y.2 := heq ▸ h

theorem Grant.use {w w' : σ} {d : Descriptor} (h : Grant w d w') : Use w w' := by
  cases h with
  | connect h => exact (Use.connect _ _ _ w).of_eq h
  | bindServer h => exact (Use.bindServer _ _ w).of_eq h
  | accept h => exact (Use.accept _ w).of_eq h
  | bindPeer h => exact (Use.bindPeer _ _ w).of_eq h

theorem Ask.use {w w' : σ} (h : Ask w w') : Use w w' := by
  cases h with
  | now => exact .now w
  | refused h => exact (Use.connect _ _ _ w).of_eq h
  | connectError d => exact .connectError d w
  | unbound h => exact (Use.bindServer _ _ w).of_eq h
  | accept h hnone => exact (Use.accept _ w).of_eq h
  | receiveFrom d limit => exact .receiveFrom d limit w
  | homeless h => exact (Use.bindPeer _ _ w).of_eq h
  | shutdown d => exact .shutdown d w

end Host

/-- **A system that hands out only descriptors that are not open.** `isOpen` tells which the loop was given
and has not closed. Nothing but their close closes them, and they are small numbers. -/
structure Kernel (σ : Type) [Host σ] where
  isOpen : Descriptor → σ → Prop
  small : ∀ {d w}, isOpen d w → (0 : Int) ≤ d ∧ d < (2 ^ 31 : Int)
  grant : ∀ {w d w'}, Host.Grant w d w' → ¬ isOpen d w ∧ isOpen d w'
  use : ∀ {w w' d}, Host.Use w w' → isOpen d w → isOpen d w'
  close : ∀ {w d e}, e ≠ d → isOpen e w → isOpen e (Host.close d w)

namespace Kernel

variable {σ : Type} [Host σ]

/-- What is open stays open. -/
def Keeps (k : Kernel σ) (w w' : σ) : Prop := ∀ d, k.isOpen d w → k.isOpen d w'

variable {k : Kernel σ}

theorem Keeps.refl (w : σ) : k.Keeps w w := fun _ h => h

theorem Keeps.trans {w w' w'' : σ} (h : k.Keeps w w') (h' : k.Keeps w' w'') : k.Keeps w w'' :=
  fun d hd => h' d (h d hd)

theorem keeps_use {w w' : σ} (h : Host.Use w w') : k.Keeps w w' := fun _ hd => k.use h hd

theorem keeps_flush (d : Descriptor) (now : Instant) (queue : List Outgoing) (w : σ) :
    k.Keeps w (flush d now queue w).world :=
  Host.flush_keeps (P := k.Keeps w) (fun data w' h => h.trans (keeps_use (.send d data w'))) now queue
    (.refl w)

theorem keeps_read (t : Transport) (f : Framing) (w : σ) : k.Keeps w (t.read f w).world :=
  Host.read_keeps (P := k.Keeps w) (fun limit w' h => h.trans (keeps_use (.receive _ limit w'))) f
    (.refl w)

theorem keeps_deliverAll (callback : Nat) (events : List Event) (s : Service) (w : σ) :
    k.Keeps w (Service.deliverAll callback events s w).2 := by
  induction events generalizing s w with
  | nil => exact .refl w
  | cons e rest ih => exact (keeps_use (.onEvent callback e _ w)).trans (ih _ _)

theorem keeps_dispatch (max : Nat) (s : Service) (w : σ) : k.Keeps w (s.dispatch max w).2.2 := by
  unfold Service.dispatch
  simp only
  split
  · exact keeps_deliverAll _ _ _ w
  · exact .refl w

end Kernel

namespace Reactor

variable {σ : Type} [Host σ] {k : Kernel σ} {r r' r'' : Reactor σ} {i : Nat} {d : Descriptor}

/-! ## What changes no hands -/

/-- No descriptor changes hands, and what is open stays open. -/
structure Steady (k : Kernel σ) (r r' : Reactor σ) : Prop where
  custody : r'.custody = r.custody
  transports : r'.transports = r.transports
  world : k.Keeps r.world r'.world

theorem Steady.refl (r : Reactor σ) : r.Steady k r := ⟨rfl, rfl, .refl _⟩

theorem Steady.trans (h : r.Steady k r') (h' : r'.Steady k r'') : r.Steady k r'' :=
  ⟨h'.custody.trans h.custody, h'.transports.trans h.transports, h.world.trans h'.world⟩

theorem Steady.ite {p : Prop} [Decidable p] {r₁ r₂ : Reactor σ} (h₁ : r.Steady k r₁)
    (h₂ : r.Steady k r₂) : r.Steady k (if p then r₁ else r₂) := by
  split
  · exact h₁
  · exact h₂

theorem steady_world (r : Reactor σ) {w : σ} (h : k.Keeps r.world w) :
    r.Steady k { r with world := w } := ⟨rfl, rfl, h⟩

/-- What the loop shares with the application's threads holds no descriptor. -/
theorem steady_shared (r : Reactor σ) (s : Service) {w : σ} (h : k.Keeps r.world w) :
    r.Steady k { r with service := s, world := w } := ⟨rfl, rfl, h⟩

theorem steady_updateChannel (r : Reactor σ) (i : Nat) {f : Channel → Channel}
    (hf : ∀ c, r.channel? i = some c → (f c).socket = c.socket) : r.Steady k (r.updateChannel i f) :=
  ⟨custody_updateChannel r i hf, rfl, .refl _⟩

theorem steady_setState (r : Reactor σ) (i : Nat) (state : ChannelState) :
    r.Steady k (r.setState i state) := ⟨custody_setState r i state, rfl, .refl _⟩

theorem steady_now (r : Reactor σ) : r.Steady k r.now.2 :=
  steady_world r (Kernel.keeps_use (.now _))

theorem steady_dropTimer (r : Reactor σ) (i : Nat) : r.Steady k (r.dropTimer i) := by
  refine ⟨custody_dropTimer r i, transports_dropTimer r i, ?_⟩
  unfold dropTimer
  split
  · exact .refl _
  · exact .refl _

theorem steady_armTimer (r : Reactor σ) (i : Nat) (delay : Duration) (task : Task) :
    r.Steady k (r.armTimer i delay task) := by
  refine ((steady_dropTimer r i).trans (steady_now _)).trans ?_
  exact ⟨custody_updateChannel _ i fun _ _ => rfl, rfl, .refl _⟩

theorem steady_scheduleReconnect (r : Reactor σ) (i : Nat) : r.Steady k (r.scheduleReconnect i) := by
  unfold scheduleReconnect
  split
  · exact steady_armTimer r i _ _
  · exact .refl r

theorem steady_emit (r : Reactor σ) (e : Event) : r.Steady k (r.emit e) := by
  refine ⟨custody_emit r e, transports_emit r e, ?_⟩
  simp only [emit]
  split
  · exact .refl _
  · split
    · exact Kernel.keeps_use (.onEvent _ e _ r.world)
    · exact .refl _

theorem steady_emitAll (r : Reactor σ) (events : List Event) : r.Steady k (r.emitAll events) := by
  induction events generalizing r with
  | nil => exact .refl r
  | cons e rest ih => exact (steady_emit r e).trans (ih _)

theorem steady_applyKeepAlive (r : Reactor σ) (d : Descriptor) : r.Steady k (r.applyKeepAlive d) := by
  unfold applyKeepAlive
  split
  · exact steady_world r (Kernel.keeps_use (.keepAlive d _ _))
  · exact .refl r

theorem steady_afterLoss (r : Reactor σ) (i : Nat) (status : Status) :
    r.Steady k (r.afterLoss i status) := by
  have hlapsed : r.Steady k (r.lapsed i status) :=
    (steady_updateChannel r i fun _ _ => by rfl).trans (steady_setState _ i _)
  exact afterLoss_cases (.refl r) (fun _ _ _ => hlapsed)
    fun _ _ _ _ => hlapsed.trans (steady_scheduleReconnect _ i)

theorem steady_flushTransport (r : Reactor σ) (now : Instant) (id : TransportId) :
    r.Steady k (r.flushTransport now id).2 := by
  refine ⟨custody_flushTransport r now id, (idle_flushTransport r now id).transports, ?_⟩
  unfold flushTransport
  split
  · exact .refl _
  · split
    · exact .refl _
    · exact Kernel.keeps_flush _ _ _ _

theorem steady_begun (r : Reactor σ) (i : Nat) (mask : ChannelMask) : r.Steady k (r.begun i mask) := by
  have hopening : r.Steady k ((r.updateChannel i ({ · with
      mask := mask, pendingOpen := true, lastStatus := Status.ok })).setState i .opening) :=
    (steady_updateChannel r i fun _ _ => by rfl).trans (steady_setState _ i _)
  unfold begun
  exact .ite (hopening.trans (steady_armTimer _ i _ _)) hopening

/-! ## Held, open and watched -/

/-- What is held is open and watched, and the slots are in order. -/
structure Secure (k : Kernel σ) (r : Reactor σ) : Prop where
  arena : r.transports.Exact
  fits : r.transports.Fits
  exact : r.custody.Exact
  isOpen : ∀ {d} owner, r.custody.Holds d owner → k.isOpen d r.world

/-- A descriptor in hand: it is open, and nobody holds it. -/
structure Handed (k : Kernel σ) (r : Reactor σ) (d : Descriptor) : Prop where
  isOpen : k.isOpen d r.world
  spare : r.custody.Spare d

theorem Steady.secure (h : r.Steady k r') (hr : r.Secure k) : r'.Secure k where
  arena := h.transports ▸ hr.arena
  fits := h.transports ▸ hr.fits
  exact := h.custody ▸ hr.exact
  isOpen owner hholds := h.world _ (hr.isOpen owner (h.custody ▸ hholds))

theorem Steady.handed (h : r.Steady k r') (hd : r.Handed k d) : r'.Handed k d :=
  ⟨h.world d hd.isOpen, h.custody ▸ hd.spare⟩

/-- **A descriptor that was handed out is nobody's.** -/
theorem Secure.grant (hr : r.Secure k) {w : σ} (hd : Host.Grant r.world d w) :
    Secure k { r with world := w } ∧ Handed k { r with world := w } d := by
  have hkept : r.Steady k { r with world := w } := steady_world r (Kernel.keeps_use hd.use)
  refine ⟨hkept.secure hr, (k.grant hd).2, fun owner hholds => (k.grant hd).1 ?_⟩
  exact hr.isOpen owner hholds

/-- Whoever is registered last, what is held afterwards is open. -/
theorem Secure.isOpen_of_register (hr : r.Secure k) {v : Custody} (hv : v.Exact) {owner : Owner}
    {interest : Interest} (hwatch : v.watch = r.custody.watch.register d owner interest)
    (hd : k.isOpen d r.world) {e : Descriptor} {owner' : Owner} (h : v.Holds e owner') :
    k.isOpen e r.world := by
  rcases hr.exact.of_register hv hwatch h with hbefore | rfl
  · exact hr.isOpen _ hbefore
  · exact hd

/-! ## Letting go -/

/-- What nobody holds may be closed. -/
theorem Secure.closeSocket (hr : r.Secure k) (hspare : r.custody.Spare d) :
    (r.closeSocket d).Secure k :=
  ⟨hr.arena, hr.fits, hr.exact, fun owner hholds =>
    k.close (fun heq => hspare owner (heq ▸ hholds)) (hr.isOpen owner hholds)⟩

/-- A channel's socket is in hand once the channel let it go. -/
theorem Secure.unbound (hr : r.Secure k) {c : Channel} (hc : r.channel? i = some c)
    (hsocket : c.socket = some d) : (r.unbound i d).Secure k ∧ (r.unbound i d).Handed k d := by
  have hat : r.custody.sockets[i]? = some (some d) := hsocket ▸ socket_of_channel hc
  have hreleased := custody_unbound hc d
  have hexact := hr.exact.release hat
  have hbefore : ∀ {e owner}, (r.custody.release i d).Holds e owner → r.custody.Holds e owner ∧ e ≠ d :=
    fun h => hr.exact.of_deregister hexact rfl h
  refine ⟨⟨hr.arena, hr.fits, hreleased ▸ hexact, fun owner h => ?_⟩, ?_, fun owner h => ?_⟩
  · exact hr.isOpen _ (hbefore (hreleased ▸ h)).1
  · exact hr.isOpen (.channel i) hat
  · exact (hbefore (hreleased ▸ h)).2 rfl

theorem Secure.releaseSocket (hr : r.Secure k) (i : Nat) : (r.releaseSocket i).Secure k := by
  unfold Reactor.releaseSocket
  split
  · rename_i d hd
    obtain ⟨c, hc, hsocket⟩ := Option.bind_eq_some_iff.1 hd
    obtain ⟨hreleased, hhand⟩ := hr.unbound hc hsocket
    exact hreleased.closeSocket hhand.spare
  · exact hr

theorem Secure.parted (hr : r.Secure k) {id : TransportId} {t : Transport}
    (ht : r.transports.get? id = some t) (status : Status) : (r.parted id t status).Secure k := by
  let r₁ : Reactor σ := { (r.unwatch t.descriptor).shutdownSocket t.descriptor with
    service := r.service.updateConnection t.handle (·.close status) }
  let r₂ := r₁.emit (.connectionLost t.handle.channel status t.handle)
  have hkept : k.Keeps r.world r₂.world :=
    (Kernel.keeps_use (.shutdown t.descriptor r.world)).trans (steady_emit r₁ _).world
  have hworld : (r.parted id t status).world = Host.close t.descriptor r₂.world := rfl
  have hheld : r.custody.held id = some (t.descriptor, t.interest) := congrArg (Option.map _) ht
  have hexact := hr.exact.drop hheld
  have hcustody := custody_parted r id t status
  have harena := transports_parted r id t status
  refine ⟨harena ▸ Arena.exact_remove hr.arena id, ?_, hcustody ▸ hexact, fun {e} owner h => ?_⟩
  · exact harena ▸ Arena.fits_of_size (Arena.size_remove r.transports id).symm hr.fits
  · obtain ⟨hbefore, hne⟩ := hr.exact.of_deregister hexact rfl (hcustody ▸ h)
    rw [hworld]
    exact k.close hne (hkept e (hr.isOpen _ hbefore))

theorem Secure.loseTransport (hr : r.Secure k) (id : TransportId) (status : Status) :
    (r.loseTransport id status).Secure k := by
  cases ht : r.transports.get? id with
  | none => rwa [loseTransport_of_none ht]
  | some t =>
    rw [loseTransport_of_some ht]
    exact (steady_afterLoss _ _ _).secure (hr.parted ht status)

theorem Secure.openFailed (hr : r.Secure k) (i : Nat) (status : Status) :
    (r.openFailed i status).Secure k := by
  have hreleased := ((steady_dropTimer r i).secure hr).releaseSocket i
  have hclosed : ((r.dropTimer i).releaseSocket i).Steady k (r.givenUp i status) :=
    (steady_updateChannel _ i fun _ _ => by rfl).trans (steady_setState _ i _)
  have htold := (steady_emit _ (.connectResponse i status none)).secure (hclosed.secure hreleased)
  exact openFailed_cases (fun _ => hr) (fun _ _ _ => htold)
    fun _ _ _ => (steady_scheduleReconnect _ i).secure htold

/-! ## Taking over -/

/-- **There are no more transports than descriptors.** -/
theorem Secure.length_transports (hr : r.Secure k) : r.transports.toList.length ≤ 2 ^ 31 := by
  have hholds : ∀ x ∈ r.transports.toList, r.transports.get? x.1 = some x.2 ∧
      r.custody.Holds x.2.descriptor (.transport x.1) := fun x hx =>
    have hget := (Arena.mem_toList hr.fits).1 hx
    ⟨hget, x.2.interest, congrArg (Option.map _) hget⟩
  have hsmall : ∀ x ∈ r.transports.toList,
      (0 : Int) ≤ x.2.descriptor ∧ x.2.descriptor < (2 ^ 31 : Int) :=
    fun x hx => k.small (hr.isOpen _ (hholds x hx).2)
  have hids : r.transports.ids.Nodup := by
    refine (Arena.pairwise_ids hr.fits).imp fun {id id'} hlt heq => ?_
    exact Nat.ne_of_lt hlt (congrArg TransportId.slot heq)
  have hnodup : (r.transports.toList.map (·.2.descriptor.toNat)).Nodup := by
    refine hids.of_map.map_on fun x hx y hy heq => ?_
    have hsame : x.2.descriptor = y.2.descriptor := by
      rw [← Int.toNat_of_nonneg (hsmall x hx).1, ← Int.toNat_of_nonneg (hsmall y hy).1]
      exact congrArg Int.ofNat heq
    obtain ⟨hgetx, hholdsx⟩ := hholds x hx
    obtain ⟨hgety, hholdsy⟩ := hholds y hy
    have hid : x.1 = y.1 := Owner.transport.inj (hr.exact.holder hholdsx (hsame ▸ hholdsy))
    exact Prod.ext hid (Option.some.inj (hgetx.symm.trans (hid ▸ hgety)))
  have hrange : r.transports.toList.map (·.2.descriptor.toNat) ⊆ List.range (2 ^ 31) := by
    intro n hn
    obtain ⟨x, hx, rfl⟩ := List.mem_map.1 hn
    exact List.mem_range.2 ((Int.toNat_lt (hsmall x hx).1).2 (hsmall x hx).2)
  have hle := (hnodup.subperm hrange).length_le
  rwa [List.length_map, List.length_range] at hle

/-- So a slot is left for the next one. -/
theorem Secure.fits_addTransport (hr : r.Secure k) (i : Nat) (mask : ChannelMask) (d : Descriptor) :
    (r.addTransport i mask d).2.transports.Fits := by
  have hsize : (r.addTransport i mask d).2.transports.slots.size =
      if r.transports.free = [] then r.transports.slots.size + 1 else r.transports.slots.size :=
    Arena.slots_size_insertWith _ _
  rw [Arena.Fits, hsize]
  split
  · rename_i hfull
    have hle := hr.length_transports
    rw [Arena.length_toList hr.arena hfull] at hle
    exact Nat.le_trans (Nat.succ_le_succ hle) (by decide)
  · exact hr.fits

/-- **A transport takes over a descriptor that is in hand.** -/
theorem Secure.addTransport (hr : r.Secure k) (hd : r.Handed k d) (i : Nat) (mask : ChannelMask) :
    (r.addTransport i mask d).2.Secure k := by
  have hfits := hr.fits_addTransport i mask d
  have hcustody := custody_addTransport hr.arena.toSound hfits
  have hnew : r.transports.get? (r.addTransport i mask d).1.id = none :=
    Arena.get?_of_slot_eq hr.arena.toSound hfits rfl
  have hexact : (r.custody.hold (r.addTransport i mask d).1.id d .read).Exact := by
    refine hr.exact.hold (fun o ho => absurd ho (hd.spare o)) (fun e he => ?_) .read
    obtain ⟨interest, hheld⟩ := he
    simp [custody, hnew] at hheld
  refine ⟨Arena.exact_insertWith hr.arena hfits, hfits, hcustody ▸ hexact, fun owner h =>
    hr.isOpen_of_register hexact rfl hd.isOpen (hcustody ▸ h)⟩

/-- A channel without a socket takes over a descriptor that is in hand. -/
theorem Secure.bind (hr : r.Secure k) (hd : r.Handed k d) {c : Channel} (hc : r.channel? i = some c)
    (hfree : c.socket = none) (interest : Interest) {f : Channel → Channel} (hf : (f c).socket = some d) :
    ((r.watchFor d (.channel i) interest).updateChannel i f).Secure k := by
  have hsocket : r.custody.sockets[i]? = some none := hfree ▸ socket_of_channel hc
  have hcustody := custody_bind hc d interest hf
  have hexact := hr.exact.bind hsocket hd.spare interest
  refine ⟨hr.arena, hr.fits, hcustody ▸ hexact, fun owner h =>
    hr.isOpen_of_register hexact rfl hd.isOpen (hcustody ▸ h)⟩

theorem Secure.connected (hr : r.Secure k) (hd : r.Handed k d) (i : Nat) (mask : ChannelMask) :
    (r.connected i mask d).Secure k := by
  let r₁ := if mask.isTcp then (r.dropTimer i).applyKeepAlive d else r.dropTimer i
  have hready : r.Steady k r₁ :=
    .ite ((steady_dropTimer r i).trans (steady_applyKeepAlive _ d)) (steady_dropTimer r i)
  have hadded := (hready.secure hr).addTransport (hready.handed hd) i mask
  have hopened := (steady_updateChannel (r₁.addTransport i mask d).2 i
    (f := ({ · with lastStatus := Status.ok })) fun _ _ => rfl).secure hadded
  exact (steady_emit _ _).secure ((steady_setState _ i .opened).secure hopened)

theorem Secure.accepted (hr : r.Secure k) (hd : r.Handed k d) (i : Nat) (mask : ChannelMask) :
    (r.accepted i mask d).Secure k := by
  have hready : r.Steady k (r.applyKeepAlive d) := steady_applyKeepAlive r d
  exact (steady_emit _ _).secure ((hready.secure hr).addTransport (hready.handed hd) i mask)

theorem Secure.unpacked (hr : r.Secure k) (id : TransportId) (t : Transport) :
    (r.unpacked id t).Secure k := by
  have hcustody : (r.received id t).custody = r.custody := custody_modify r id fun _ => rfl
  have hreceived : (r.received id t).Secure k := by
    refine ⟨Arena.exact_modify hr.arena id _, ?_, hcustody ▸ hr.exact, fun {d} owner h => ?_⟩
    · exact Arena.fits_of_size (Arena.size_modify r.transports id _).symm hr.fits
    · exact Kernel.keeps_read t _ r.world d (hr.isOpen _ (hcustody ▸ h))
  exact (steady_emitAll _ _).secure hreceived

theorem Secure.renewed (hr : r.Secure k) {id : TransportId} {t : Transport}
    (ht : r.transports.get? id = some t) (interest : Interest) : (r.renewed id t interest).Secure k := by
  have hheld : r.custody.held id = some (t.descriptor, t.interest) := congrArg (Option.map _) ht
  have hcustody := custody_renewed ht interest
  have hholds : r.custody.Holds t.descriptor (.transport id) := ⟨_, hheld⟩
  have hexact : (r.custody.hold id t.descriptor interest).Exact :=
    hr.exact.hold (fun o ho => hr.exact.holder ho hholds)
      (fun e => (Custody.holds_transport hheld).1) interest
  exact ⟨Arena.exact_modify hr.arena id _,
    Arena.fits_of_size (Arena.size_modify r.transports id _).symm hr.fits, hcustody ▸ hexact,
    fun owner h => hr.isOpen_of_register hexact rfl (hr.isOpen _ hholds) (hcustody ▸ h)⟩

theorem Secure.introduced (hr : r.Secure k) (hd : r.Handed k d) (i : Nat) (mask : ChannelMask)
    (peer : SocketAddress) : (r.introduced i mask d peer).Secure k := by
  have hadded := hr.addTransport hd i mask
  exact (steady_emit _ _).secure ((steady_updateChannel _ i fun _ _ => by rfl).secure hadded)

/-! ## Chores -/

theorem Seek.steady (h : Seek i r r') : r.Steady k r' := by
  have hinquiring : r.Steady k (r.inquiring i) := steady_updateChannel r i fun _ _ => by rfl
  have hasked : ∀ {l : Lookup} {started w}, Host.lookUp l r.world = (started, w) →
      r.Steady k { r.inquiring i with world := w } := fun heq =>
    hinquiring.trans (steady_world _ (Kernel.keeps_use ((Host.Use.lookUp _ _).of_eq heq)))
  cases h with
  | retarget hc h => exact steady_updateChannel r i fun _ _ => by rfl
  | refresh hc => exact (steady_now r).trans (steady_updateChannel _ i fun _ _ => by rfl)
  | inquire hc hdirty h => exact (hasked h).trans ⟨rfl, rfl, .refl _⟩
  | unanswered hc hdirty h =>
    exact ((hasked h).trans (steady_now _)).trans (steady_updateChannel _ i fun _ _ => by rfl)

section
variable {T : Terms}

/-- **A chore hands descriptors over as it should**, in a row from rest. -/
theorem Secure.chore (hr : r.Secure k) (hrests : T.rests) (h : Chore T i r r') : r'.Secure k := by
  have hfree : ∀ {c}, r.channel? i = some c → r.Bare i .opening → c.socket = none := fun hc hbare =>
    (hbare.channel _ hc).2
  cases h with
  | ask h => exact (steady_world r (Kernel.keeps_use h.use)).secure hr
  | drop => exact (steady_dropTimer r i).secure hr
  | settle => exact (steady_updateChannel r i fun _ _ => by rfl).secure hr
  | release => exact hr.releaseSocket i
  | port port => exact (steady_updateChannel r i fun _ _ => by rfl).secure hr
  | seek hseeks h => exact h.steady.secure hr
  | answer hhears ha hc haccepts => exact (steady_updateChannel r _ fun _ _ => by rfl).secure hr
  | begin hopens hvalid hc hbare => exact (steady_begun r i _).secure hr
  | fail h hopening => exact hr.openFailed i _
  | connect hc hclient h =>
    obtain ⟨hgranted, hhand⟩ := hr.grant (.connect h)
    exact hgranted.connected hhand i _
  | connecting hc hclient h hbare =>
    obtain ⟨hgranted, hhand⟩ := hr.grant (.connect h)
    exact hgranted.bind hhand hc (hfree hc (hbare hrests)) .write rfl
  | finish hc hclient hsocket h =>
    -- the socket that is connected goes from its channel to its transport
    have hasked := (steady_world r (Kernel.keeps_use ((Host.Use.connectError _ _).of_eq h))).secure hr
    obtain ⟨hreleased, hhand⟩ := hasked.unbound hc hsocket
    exact hreleased.connected hhand i _
  | bind hc hserver h hbare =>
    obtain ⟨hgranted, hhand⟩ := hr.grant (.bindServer h)
    exact (steady_setState _ i _).secure (hgranted.bind hhand hc (hfree hc (hbare hrests)) .read rfl)
  | accept hc htcp h =>
    obtain ⟨hgranted, hhand⟩ := hr.grant (.accept h)
    exact hgranted.accepted hhand i _
  | packet hrelays hpeer payload => exact (steady_emit r _).secure hr
  | greet hrelays hunknown h payload =>
    obtain ⟨hgranted, hhand⟩ := hr.grant (.bindPeer h)
    exact (steady_emit _ _).secure (hgranted.introduced hhand i _ _)
  | read ht hi hok => exact hr.unpacked _ _
  | broken ht hi hfailed => exact (hr.unpacked _ _).loseTransport _ _
  | flush now id => exact (steady_flushTransport r now id).secure hr
  | lose ht hi status => exact hr.loseTransport _ status
  | empty halone =>
    exact ((steady_updateChannel r i fun _ _ => by rfl).trans (steady_setState _ i _)).secure hr
  | closing => exact (steady_emit r _).secure hr
  | renew ht hc => exact hr.renewed ht _
  | script timer cancelled =>
    exact (steady_shared r _ (Kernel.keeps_use (.onTimer timer cancelled r.service _))).secure hr

theorem Secure.chores (hr : r.Secure k) (hrests : T.rests) (h : Chores T r r') : r'.Secure k :=
  h.keeps (fun _ hchore hr => hr.chore hrests hchore) hr

end

/-! ## From rest to rest -/

variable {due : List (Expired Task)}

theorem Secure.perform (hr : r.Secure k) (hrest : r.AtRest due) (c : Command) : (r.perform c).Secure k :=
  hr.chores trivial (chores_perform (hrest.admits_rested hr.fits c))

theorem Secure.act (hr : r.Secure k) (hrest : r.AtRest due) {a : Act} (ha : a.isTimer = false) :
    (r.act a).Secure k := by
  refine act_cases (T := .rested) ha (fun _ => trivial) (fun _ => hrest.ripe hr.fits)
    ((steady_shared r _ (Kernel.keeps_use (.now _))).secure hr)
    (fun _ => (steady_world r (Kernel.keeps_use (.wait _ _ _))).secure hr) (fun ready => ?_) (hr.chores trivial)
  have hreset : r.Steady k (r.resetInterrupter ready) := .ite ⟨rfl, rfl, .refl _⟩ (.refl r)
  exact hreset.secure hr

theorem Secure.fire (hr : r.Secure k) (hrest : r.AtRest due) {e : Expired Task} (he : e ∈ due) :
    (r.fire e).Secure k :=
  keeps_fire (P := (·.Secure k)) (hrest.yields_rested hr.fits he)
    (fun i hr => (steady_updateChannel r i fun _ _ => by rfl).secure hr)
    (fun hchores hr => hr.chores trivial hchores) hr

theorem Secure.closed (hr : r.Secure k) : r.closed.Secure k :=
  hr.chores (T := .rested) trivial (chores_closed (fun _ => trivial) (.inl hr.fits))

theorem Secure.updateInterest (hr : r.Secure k) (id : TransportId) : (r.updateInterest id).Secure k :=
  updateInterest_cases hr fun _ c ht _ => hr.renewed ht c.wanted

/-- A run starts with nothing but the interrupter's descriptor. -/
theorem secure_new {w : σ} (hwake : k.isOpen wakeDescriptor w) (s : Service)
    (endpoints : List Endpoint) : (Reactor.new s w endpoints).Secure k := by
  have hholds : ∀ d owner, (Reactor.new s w endpoints).custody.Holds d owner → owner = .interrupter := by
    intro d owner h
    cases owner with
    | interrupter => rfl
    | channel i =>
      obtain ⟨c, hc, hsocket⟩ := Option.map_eq_some_iff.1 (List.getElem?_map.symm.trans h)
      obtain ⟨e, rfl⟩ := exists_endpoint_of_new hc
      cases hsocket
    | transport id =>
      obtain ⟨interest, h⟩ := h
      simp [custody, Reactor.new, Arena.get?_empty] at h
  refine ⟨Arena.exact_empty, Nat.zero_le _, Custody.exact_alone rfl hholds, fun {d} owner h => ?_⟩
  obtain rfl := hholds d owner h
  obtain rfl : d = wakeDescriptor := h
  exact hwake

end Reactor

end NetReactor
