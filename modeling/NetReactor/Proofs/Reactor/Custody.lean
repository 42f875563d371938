import NetReactor.Proofs.Reactor.Standing

/-!
# Whose descriptors are watched

A descriptor is held by a channel, as its socket, or by a transport, and is watched in its holder's
name. **Whatever is watched is held by whom it is watched for** (`Tidy`): a handler that takes a descriptor
over or lets it go does the same to the watch, in one of five ways (`Move`). So nothing stays watched
once its holder is gone, whichever numbers the system gives out.
-/

namespace NetReactor

open Timer (Expired)

/-- What is watched, the channels' sockets, and the transports' descriptors with the interest each is to
be watched with. -/
structure Custody where
  watch : Watch Owner
  sockets : List (Option Descriptor)
  held : TransportId → Option (Descriptor × Interest)

namespace Custody

variable {v v' : Custody}

/-- Channel `i` takes a descriptor for its socket. -/
def bind (v : Custody) (i : Nat) (d : Descriptor) (interest : Interest) : Custody :=
  { v with watch := v.watch.register d (.channel i) interest, sockets := v.sockets.set i (some d) }

/-- Channel `i` lets its socket go. -/
def release (v : Custody) (i : Nat) (d : Descriptor) : Custody :=
  { v with watch := v.watch.deregister d, sockets := v.sockets.set i none }

/-- A transport is watched from now on. -/
def hold (v : Custody) (id : TransportId) (d : Descriptor) (interest : Interest) : Custody :=
  { v with
    watch := v.watch.register d (.transport id) interest
    held := fun id' => if id' = id then some (d, interest) else v.held id' }

/-- A transport is watched no more. -/
def drop (v : Custody) (id : TransportId) (d : Descriptor) : Custody :=
  { v with watch := v.watch.deregister d, held := fun id' => if id' = id then none else v.held id' }

/-- One change of hands. -/
inductive Move : Custody → Custody → Prop
  | bind {v : Custody} {i : Nat} (d : Descriptor) (interest : Interest)
      (hfree : v.sockets[i]? = some none) : Move v (v.bind i d interest)
  | release {v : Custody} {i : Nat} {d : Descriptor} (hd : v.sockets[i]? = some (some d)) :
      Move v (v.release i d)
  | add {v : Custody} {id : TransportId} (d : Descriptor) (hnew : v.held id = none) :
      Move v (v.hold id d .read)
  | lose {v : Custody} {id : TransportId} {d : Descriptor} {interest : Interest}
      (hd : v.held id = some (d, interest)) : Move v (v.drop id d)
  | renew {v : Custody} {id : TransportId} {d : Descriptor} {interest : Interest} (interest' : Interest)
      (hd : v.held id = some (d, interest)) : Move v (v.hold id d interest')

/-- Any number of changes. -/
def Moves : Custody → Custody → Prop := Relation.ReflTransGen Move

theorem Moves.refl (v : Custody) : v.Moves v := Relation.ReflTransGen.refl

theorem Moves.single (h : v.Move v') : v.Moves v' := Relation.ReflTransGen.single h

theorem Moves.trans {v'' : Custody} (h : v.Moves v') (h' : v'.Moves v'') : v.Moves v'' :=
  Relation.ReflTransGen.trans h h'

/-- Whether an owner holds a descriptor. -/
def Holds (v : Custody) (d : Descriptor) : Owner → Prop
  | .interrupter => d = Reactor.wakeDescriptor
  | .channel i => v.sockets[i]? = some (some d)
  | .transport id => ∃ interest, v.held id = some (d, interest)

theorem holds_channel {i : Nat} {d e : Descriptor} (hd : v.sockets[i]? = some (some d)) :
    v.Holds e (.channel i) ↔ e = d := by
  simp [Holds, hd, eq_comm]

theorem holds_transport {id : TransportId} {d e : Descriptor} {interest : Interest}
    (hd : v.held id = some (d, interest)) : v.Holds e (.transport id) ↔ e = d := by
  simp [Holds, hd, eq_comm]

/-- Whatever is watched is held by whom it is watched for. -/
def Tidy (v : Custody) : Prop := ∀ x ∈ v.watch, v.Holds x.descriptor x.token

theorem mem_deregister {w : Watch Owner} {d : Descriptor} {x : Registration Owner} :
    x ∈ w.deregister d ↔ x ∈ w ∧ x.descriptor ≠ d := by
  simp [Watch.deregister]

theorem mem_register {w : Watch Owner} {d : Descriptor} {owner : Owner} {interest : Interest}
    {x : Registration Owner} : x ∈ w.register d owner interest ↔
      (x ∈ w ∧ x.descriptor ≠ d) ∨ x = ⟨d, owner, interest⟩ := by
  simp [Watch.register, mem_deregister]

/-- A channel's socket concerns no other owner. -/
theorem holds_set {d : Descriptor} {owner : Owner} {i : Nat} (hi : owner ≠ .channel i)
    (socket : Option Descriptor) (watch : Watch Owner) :
    Holds { v with watch := watch, sockets := v.sockets.set i socket } d owner ↔ v.Holds d owner := by
  cases owner with
  | interrupter => exact Iff.rfl
  | transport id => exact Iff.rfl
  | channel j =>
    have hne : i ≠ j := fun heq => hi (heq ▸ rfl)
    exact iff_of_eq (congrArg (· = some (some d)) (List.getElem?_set_ne hne))

/-- Nor does a transport's descriptor. -/
theorem holds_update {d : Descriptor} {owner : Owner} {id : TransportId} (hid : owner ≠ .transport id)
    (new : Option (Descriptor × Interest)) (watch : Watch Owner) :
    Holds { v with watch := watch, held := fun id' => if id' = id then new else v.held id' } d owner ↔
      v.Holds d owner := by
  cases owner with
  | interrupter => exact Iff.rfl
  | channel j => exact Iff.rfl
  | transport id' =>
    have hne : id' ≠ id := fun heq => hid (heq ▸ rfl)
    simp only [Holds, if_neg hne]

theorem tidy_bind (hv : v.Tidy) {i : Nat} (hfree : v.sockets[i]? = some none) (d : Descriptor)
    (interest : Interest) : (v.bind i d interest).Tidy := by
  intro x hx
  rcases mem_register.1 hx with ⟨hx, -⟩ | rfl
  · refine (holds_set (fun howner => ?_) _ _).2 (hv x hx)
    have hholds := hv x hx
    rw [howner, Holds, hfree] at hholds
    simp at hholds
  · exact List.getElem?_set_self (List.getElem?_eq_some_iff.1 hfree).1

theorem tidy_release (hv : v.Tidy) {i : Nat} {d : Descriptor} (hd : v.sockets[i]? = some (some d)) :
    (v.release i d).Tidy := by
  intro x hx
  obtain ⟨hx, hne⟩ := mem_deregister.1 hx
  refine (holds_set (fun howner => hne ?_) _ _).2 (hv x hx)
  exact (holds_channel hd).1 (howner ▸ hv x hx)

/-- A transport comes or is watched otherwise: it is not watched under another descriptor. -/
theorem tidy_hold (hv : v.Tidy) {id : TransportId} {d : Descriptor}
    (honly : ∀ e, v.Holds e (.transport id) → e = d) (interest : Interest) :
    (v.hold id d interest).Tidy := by
  intro x hx
  rcases mem_register.1 hx with ⟨hx, hne⟩ | rfl
  · refine (holds_update (fun howner => hne ?_) _ _).2 (hv x hx)
    exact honly _ (howner ▸ hv x hx)
  · exact ⟨interest, if_pos rfl⟩

theorem tidy_drop (hv : v.Tidy) {id : TransportId} {d : Descriptor} {interest : Interest}
    (hd : v.held id = some (d, interest)) : (v.drop id d).Tidy := by
  intro x hx
  obtain ⟨hx, hne⟩ := mem_deregister.1 hx
  refine (holds_update (fun howner => hne ?_) _ _).2 (hv x hx)
  exact (holds_transport hd).1 (howner ▸ hv x hx)

/-- **A change of hands keeps the watch tidy.** -/
theorem Move.tidy (h : Move v v') (hv : v.Tidy) : v'.Tidy := by
  cases h with
  | bind d interest hfree => exact tidy_bind hv hfree d interest
  | release hd => exact tidy_release hv hd
  | add d hnew => exact tidy_hold hv (fun e ⟨interest, hheld⟩ => by simp [hnew] at hheld) _
  | lose hd => exact tidy_drop hv hd
  | renew interest' hd => exact tidy_hold hv (fun e => (holds_transport hd).1) _

theorem Moves.tidy (h : Moves v v') (hv : v.Tidy) : v'.Tidy := by
  induction h with
  | refl => exact hv
  | tail _ hmove ih => exact hmove.tidy ih

/-- Where nobody holds anything, only the interrupter is watched. -/
theorem Tidy.interrupter (hv : v.Tidy)
    (hsockets : ∀ (i : Nat) (d : Descriptor), v.sockets[i]? ≠ some (some d))
    (hheld : ∀ id, v.held id = none) : ∀ x ∈ v.watch, x.descriptor = Reactor.wakeDescriptor := by
  intro x hx
  have hholds := hv x hx
  cases howner : x.token with
  | interrupter => rwa [howner] at hholds
  | channel i =>
    rw [howner] at hholds
    exact absurd hholds (hsockets i _)
  | transport id =>
    rw [howner] at hholds
    obtain ⟨interest, hsome⟩ := hholds
    simp [hheld id] at hsome

end Custody

namespace Reactor

variable {σ : Type}

def custody (r : Reactor σ) : Custody where
  watch := r.watch
  sockets := r.channels.map (·.socket)
  held id := (r.transports.get? id).map fun t => (t.descriptor, t.interest)

variable {r r' : Reactor σ} {i : Nat}

theorem socket_of_channel {c : Channel} (hc : r.channel? i = some c) :
    r.custody.sockets[i]? = some c.socket := by
  have hsocket : (r.channels.map (·.socket))[i]? = (r.channels[i]?).map (·.socket) :=
    List.getElem?_map
  rw [custody, hsocket, show r.channels[i]? = some c from hc, Option.map_some]

theorem exists_of_socket {d : Descriptor} (hd : r.custody.sockets[i]? = some (some d)) :
    ∃ c, r.channel? i = some c ∧ c.socket = some d :=
  Option.map_eq_some_iff.1 (List.getElem?_map.symm.trans hd)

/-! ## What changes no hands -/

theorem custody_congr (hwatch : r'.watch = r.watch) (hchannels : r'.channels = r.channels)
    (htransports : r'.transports = r.transports) : r'.custody = r.custody := by
  simp only [custody, hwatch, hchannels, htransports]

theorem custody_updateChannel (r : Reactor σ) (i : Nat) {f : Channel → Channel}
    (hf : ∀ c, r.channel? i = some c → (f c).socket = c.socket) :
    (r.updateChannel i f).custody = r.custody := by
  have hsockets : (r.channels.modify i f).map (·.socket) = r.channels.map (·.socket) := by
    refine List.ext_getElem? fun j => ?_
    simp only [List.getElem?_map, List.getElem?_modify]
    by_cases hij : i = j
    · subst hij
      cases hc : r.channels[i]? with
      | none => rfl
      | some c => simp [hf c hc]
    · simp [hij]
  simp only [custody, updateChannel, hsockets]

@[simp] theorem custody_setState (r : Reactor σ) (i : Nat) (state : ChannelState) :
    (r.setState i state).custody = r.custody :=
  custody_updateChannel r i fun _ _ => rfl

@[simp] theorem custody_dropTimer (r : Reactor σ) (i : Nat) : (r.dropTimer i).custody = r.custody := by
  unfold dropTimer
  split
  · exact custody_updateChannel _ i fun _ _ => rfl
  · rfl

variable [Host σ]

@[simp] theorem custody_armTimer (r : Reactor σ) (i : Nat) (delay : Duration) (task : Task) :
    (r.armTimer i delay task).custody = r.custody := by
  refine Eq.trans ?_ (custody_dropTimer r i)
  exact custody_updateChannel _ i fun _ _ => rfl

@[simp] theorem custody_scheduleReconnect (r : Reactor σ) (i : Nat) :
    (r.scheduleReconnect i).custody = r.custody := by
  unfold scheduleReconnect
  split
  · exact custody_armTimer r i _ _
  · rfl

@[simp] theorem custody_emit (r : Reactor σ) (e : Event) : (r.emit e).custody = r.custody := by
  obtain ⟨s, w, -, heq⟩ := exists_emit r e
  rw [heq]
  rfl

@[simp] theorem custody_emitAll (r : Reactor σ) (events : List Event) :
    (r.emitAll events).custody = r.custody := by
  induction events generalizing r with
  | nil => rfl
  | cons e rest ih => exact (ih _).trans (custody_emit r e)

@[simp] theorem custody_applyKeepAlive (r : Reactor σ) (d : Descriptor) :
    (r.applyKeepAlive d).custody = r.custody := by
  unfold applyKeepAlive
  split <;> rfl

@[simp] theorem custody_afterLoss (r : Reactor σ) (i : Nat) (status : Status) :
    (r.afterLoss i status).custody = r.custody := by
  have hlapsed : (r.lapsed i status).custody = r.custody :=
    (custody_setState _ i _).trans (custody_updateChannel r i fun _ _ => rfl)
  exact afterLoss_cases rfl (fun _ _ _ => hlapsed) fun _ _ _ _ => (custody_scheduleReconnect _ i).trans hlapsed

@[simp] theorem custody_flushTransport (r : Reactor σ) (now : Instant) (id : TransportId) :
    (r.flushTransport now id).2.custody = r.custody := by
  unfold flushTransport
  split
  · rfl
  · split <;> rfl

/-! ## Letting go -/

omit [Host σ] in
/-- A channel lets its socket go, and it is watched no more. -/
theorem custody_unbound {c : Channel} (hc : r.channel? i = some c) (d : Descriptor) :
    (r.unbound i d).custody = r.custody.release i d := by
  have hsockets : (r.channels.modify i ({ · with socket := none })).map (·.socket) =
      r.custody.sockets.set i none := by
    refine List.ext_getElem? fun j => ?_
    simp only [custody, List.getElem?_map, List.getElem?_modify, List.getElem?_set, List.length_map]
    by_cases hij : i = j
    · subst hij
      obtain ⟨hlt, -⟩ := List.getElem?_eq_some_iff.1 hc
      simp [hlt]
    · simp [hij]
  rw [Custody.release, ← hsockets]
  rfl

omit [Host σ] in
theorem moves_unbound {c : Channel} (hc : r.channel? i = some c) {d : Descriptor}
    (hsocket : c.socket = some d) : r.custody.Moves (r.unbound i d).custody := by
  have hat : r.custody.sockets[i]? = some (some d) := hsocket ▸ socket_of_channel hc
  rw [custody_unbound hc]
  exact .single (.release hat)

theorem moves_releaseSocket (r : Reactor σ) (i : Nat) :
    r.custody.Moves (r.releaseSocket i).custody := by
  unfold releaseSocket
  split
  · rename_i d hd
    obtain ⟨c, hc, hsocket⟩ := Option.bind_eq_some_iff.1 hd
    exact moves_unbound hc hsocket
  · exact .refl _

@[simp] theorem watch_emit (r : Reactor σ) (e : Event) : (r.emit e).watch = r.watch := by
  obtain ⟨s, w, -, heq⟩ := exists_emit r e
  rw [heq]
  rfl

/-- A loss takes the transport and its descriptor out together. -/
theorem custody_parted (r : Reactor σ) (id : TransportId) (t : Transport) (status : Status) :
    (r.parted id t status).custody = r.custody.drop id t.descriptor := by
  let r₁ : Reactor σ := { (r.unwatch t.descriptor).shutdownSocket t.descriptor with
    service := r.service.updateConnection t.handle (·.close status) }
  let r₂ := r₁.emit (.connectionLost t.handle.channel status t.handle)
  have hchannel : (r.parted id t status).custody =
      custody { r₂ with transports := (r₂.transports.remove id).2 } :=
    custody_updateChannel _ _ fun _ _ => rfl
  have hwatch : r₂.watch = r.watch.deregister t.descriptor := watch_emit r₁ _
  have hchannels : r₂.channels = r.channels := channels_emit r₁ _
  have htransports : r₂.transports = r.transports := transports_emit r₁ _
  have hheld : (fun id' => ((r.transports.remove id).2.get? id').map fun t =>
      (t.descriptor, t.interest)) = (r.custody.drop id t.descriptor).held := by
    funext id'
    simp only [Arena.get?_remove, Custody.drop]
    split <;> rfl
  rw [hchannel, custody, hwatch, hchannels, htransports, hheld]
  rfl

theorem moves_loseTransport (r : Reactor σ) (id : TransportId) (status : Status) :
    r.custody.Moves (r.loseTransport id status).custody := by
  cases ht : r.transports.get? id with
  | none =>
    rw [loseTransport_of_none ht]
    exact .refl _
  | some t =>
    rw [loseTransport_of_some ht, custody_afterLoss, custody_parted]
    have hheld : r.custody.held id = some (t.descriptor, t.interest) := congrArg (Option.map _) ht
    exact .single (.lose hheld)

theorem moves_openFailed (r : Reactor σ) (i : Nat) (status : Status) :
    r.custody.Moves (r.openFailed i status).custody := by
  have htold : r.custody.Moves
      ((r.givenUp i status).emit (.connectResponse i status none)).custody := by
    simp only [givenUp, custody_emit, custody_setState, custody_updateChannel, implies_true]
    rw [← custody_dropTimer r i]
    exact moves_releaseSocket _ i
  refine openFailed_cases (fun _ => .refl _) (fun _ _ _ => htold) fun _ _ _ => ?_
  rwa [custody_scheduleReconnect]

/-! ## Taking over -/

/-- A new transport is held and watched. -/
theorem custody_addTransport (hsound : r.transports.Sound) {mask : ChannelMask} {d : Descriptor}
    (hfits : (r.addTransport i mask d).2.transports.Fits) :
    (r.addTransport i mask d).2.custody = r.custody.hold (r.addTransport i mask d).1.id d .read := by
  have hheld : (r.addTransport i mask d).2.custody.held =
      (r.custody.hold (r.addTransport i mask d).1.id d .read).held := by
    funext id
    have hget := congrArg (Option.map fun t : Transport => (t.descriptor, t.interest))
      (get?_addTransport hsound hfits id)
    refine hget.trans ?_
    simp only [Custody.hold]
    split <;> rfl
  exact congrArg (Custody.mk _ _) hheld

theorem moves_addTransport (hsound : r.transports.Sound) {mask : ChannelMask} {d : Descriptor}
    (hfits : (r.addTransport i mask d).2.transports.Fits) :
    r.custody.Moves (r.addTransport i mask d).2.custody := by
  rw [custody_addTransport hsound hfits]
  have hnew : r.transports.get? (r.addTransport i mask d).1.id = none :=
    Arena.get?_of_slot_eq hsound hfits rfl
  exact .single (.add d (congrArg (Option.map _) hnew))

theorem moves_connected (hsound : r.transports.Sound) {mask : ChannelMask} {d : Descriptor}
    (hfits : (r.connected i mask d).transports.Fits) :
    r.custody.Moves (r.connected i mask d).custody := by
  let r₁ := if mask.isTcp then (r.dropTimer i).applyKeepAlive d else r.dropTimer i
  have hsame : r₁.custody = r.custody := by
    by_cases htcp : mask.isTcp = true <;> simp [r₁, htcp]
  have htransports : r₁.transports = r.transports := by
    by_cases htcp : mask.isTcp = true <;> simp [r₁, htcp]
  have hconnected : r.connected i mask d = ((((r₁.addTransport i mask d).2).updateChannel i
      ({ · with lastStatus := Status.ok })).setState i .opened).emit
        (.connectResponse i Status.ok (some (r₁.addTransport i mask d).1)) := rfl
  rw [hconnected, transports_emit] at hfits
  simp only [hconnected, custody_emit, custody_setState, custody_updateChannel, implies_true]
  rw [← hsame]
  exact moves_addTransport (htransports ▸ hsound) hfits

omit [Host σ] in
/-- A channel takes a socket, and it is watched. -/
theorem custody_bind {c : Channel} (hc : r.channel? i = some c) (d : Descriptor) (interest : Interest)
    {f : Channel → Channel} (hf : (f c).socket = some d) :
    ((r.watchFor d (.channel i) interest).updateChannel i f).custody = r.custody.bind i d interest := by
  have hsockets : (r.channels.modify i f).map (·.socket) = r.custody.sockets.set i (some d) := by
    obtain ⟨hlt, hat⟩ := List.getElem?_eq_some_iff.1 hc
    refine List.ext_getElem? fun j => ?_
    simp only [custody, List.getElem?_map, List.getElem?_modify, List.getElem?_set, List.length_map]
    by_cases hij : i = j
    · subst hij
      simp [hlt, hat, hf]
    · simp [hij]
  rw [Custody.bind, ← hsockets]
  rfl

omit [Host σ] in
/-- A channel without a socket takes one. -/
theorem moves_bind {c : Channel} (hc : r.channel? i = some c) (hsocket : c.socket = none)
    (d : Descriptor) (interest : Interest) {f : Channel → Channel} (hf : (f c).socket = some d) :
    r.custody.Moves ((r.watchFor d (.channel i) interest).updateChannel i f).custody := by
  rw [custody_bind hc d interest hf]
  exact .single (.bind d interest (hsocket ▸ socket_of_channel hc))

@[simp] theorem custody_begun (r : Reactor σ) (i : Nat) (mask : ChannelMask) :
    (r.begun i mask).custody = r.custody := by
  have hopening : ((r.updateChannel i ({ · with
      mask := mask, pendingOpen := true, lastStatus := Status.ok })).setState i .opening).custody =
        r.custody := by
    simp only [custody_setState, custody_updateChannel, implies_true]
  unfold begun
  split
  · exact (custody_armTimer _ i _ _).trans hopening
  · exact hopening

theorem moves_accepted (hsound : r.transports.Sound) {mask : ChannelMask} {d : Descriptor}
    (hfits : (r.accepted i mask d).transports.Fits) :
    r.custody.Moves (r.accepted i mask d).custody := by
  have hfits : ((r.applyKeepAlive d).addTransport i mask d).2.transports.Fits := by
    simpa only [accepted, transports_emit] using hfits
  simp only [accepted, custody_emit]
  rw [← custody_applyKeepAlive r d]
  exact moves_addTransport (by rwa [transports_applyKeepAlive]) hfits

omit [Host σ] in
/-- Neither where a transport's socket is nor what it is watched for changes. -/
theorem custody_modify (r : Reactor σ) (id : TransportId) {f : Transport → Transport}
    (hf : ∀ t, ((f t).descriptor, (f t).interest) = (t.descriptor, t.interest)) :
    custody { r with transports := r.transports.modify id f } = r.custody := by
  have hheld : (fun id' => ((r.transports.modify id f).get? id').map fun t =>
      (t.descriptor, t.interest)) = r.custody.held := by
    funext id'
    simp only [custody, Arena.get?_modify]
    by_cases hid : id' = id
    · simp [hid, Function.comp_def, hf]
    · simp [hid]
  exact congrArg (Custody.mk _ _) hheld

theorem custody_unpacked (r : Reactor σ) (id : TransportId) (t : Transport) :
    (r.unpacked id t).custody = r.custody :=
  (custody_emitAll _ _).trans (custody_modify r id fun _ => rfl)

omit [Host σ] in
/-- A transport is watched for something else. -/
theorem custody_renewed {id : TransportId} {t : Transport} (ht : r.transports.get? id = some t)
    (interest : Interest) :
    (r.renewed id t interest).custody = r.custody.hold id t.descriptor interest := by
  have hheld : (fun id' => ((r.transports.modify id ({ · with interest := interest })).get? id').map
      fun t => (t.descriptor, t.interest)) = (r.custody.hold id t.descriptor interest).held := by
    funext id'
    simp only [Arena.get?_modify, Custody.hold]
    by_cases hid : id' = id
    · subst hid
      simp [ht]
    · simp [hid, custody]
  exact congrArg (Custody.mk _ _) hheld

omit [Host σ] in
theorem custody_answeredBy (r : Reactor σ) (a : Resolution) (c : Channel) :
    (r.answeredBy a c).custody = r.custody :=
  custody_updateChannel r _ fun _ _ => rfl

theorem Seek.custody_eq (h : Seek i r r') : r'.custody = r.custody := by
  have hinquiring : (r.inquiring i).custody = r.custody := custody_updateChannel r i fun _ _ => rfl
  cases h with
  | retarget hc h => exact custody_updateChannel r i fun _ _ => rfl
  | refresh hc => exact custody_updateChannel r.now.2 i fun _ _ => by rfl
  | inquire hc hdirty h => exact hinquiring
  | unanswered hc hdirty h => exact Eq.trans (custody_updateChannel _ i fun _ _ => rfl) hinquiring

/-! ## Chores -/

section
variable {T : Terms}

/-- **A chore takes over and lets go as it should**, in a row from rest. -/
theorem Chore.moves (h : Chore T i r r') (hrests : T.rests) (hsound : r.transports.Sound)
    (hfits : r'.transports.Fits) : r.custody.Moves r'.custody := by
  have hsame : ∀ {r' : Reactor σ}, r'.custody = r.custody → r.custody.Moves r'.custody :=
    fun heq => heq ▸ .refl _
  have hfree : ∀ {c}, r.channel? i = some c → r.Bare i .opening → c.socket = none := fun hc hbare =>
    (hbare.channel _ hc).2
  cases h with
  | ask h => exact .refl _
  | drop => exact hsame (custody_dropTimer r i)
  | settle => exact hsame (custody_updateChannel r i fun _ _ => rfl)
  | release => exact moves_releaseSocket r i
  | port port => exact hsame (custody_updateChannel r i fun _ _ => rfl)
  | seek hseeks h => exact hsame h.custody_eq
  | answer hhears ha hc haccepts => exact hsame (custody_answeredBy r _ _)
  | begin hopens hvalid hc hbare => exact hsame (custody_begun r i _)
  | fail h hopening => exact moves_openFailed r i _
  | @connect c target d w hc hclient h => exact moves_connected (r := { r with world := w }) hsound hfits
  | @connecting c target d w hc hclient h hbare =>
    exact moves_bind (r := { r with world := w }) hc (hfree hc (hbare hrests)) d .write rfl
  | @finish c d w hc hclient hsocket h =>
    -- the socket that is connected goes from its channel to its transport
    let r₁ : Reactor σ := { r with world := w }
    have hreleased : r.custody.Moves (r₁.unbound i d).custody := moves_unbound (r := r₁) hc hsocket
    exact hreleased.trans (moves_connected (r := r₁.unbound i d) hsound hfits)
  | @bind c address d w hc hserver h hbare =>
    rw [bound, custody_setState]
    exact moves_bind (r := { r with world := w }) hc (hfree hc (hbare hrests)) d .read rfl
  | @accept c d d' address w hc htcp h => exact moves_accepted (r := { r with world := w }) hsound hfits
  | packet hrelays hpeer payload => exact hsame (custody_emit r _)
  | @greet c server peer d w hrelays hunknown h payload =>
    simp only [introduced, transports_emit] at hfits
    simp only [introduced, custody_emit, custody_updateChannel, implies_true]
    exact moves_addTransport (r := { r with world := w }) hsound hfits
  | read ht hi hok => exact hsame (custody_unpacked r _ _)
  | @broken id t e ht hi hfailed => exact custody_unpacked r id t ▸ moves_loseTransport _ id e.status
  | flush now id => exact hsame (custody_flushTransport r now id)
  | lose ht hi status => exact moves_loseTransport r _ status
  | empty halone =>
    exact hsame ((custody_setState _ i _).trans (custody_updateChannel r i fun _ _ => rfl))
  | closing => exact hsame (custody_emit r _)
  | @renew id t c ht hc =>
    have hheld : r.custody.held id = some (t.descriptor, t.interest) := congrArg (Option.map _) ht
    rw [custody_renewed ht]
    exact .single (.renew c.wanted hheld)
  | script timer cancelled => exact .refl _

/-- So does a row of them, if the slots can be named to its end. -/
theorem Chores.moves (h : Chores T r r') (hrests : T.rests) (hsound : r.transports.Sound) :
    r'.transports.Fits → r.custody.Moves r'.custody :=
  h.keeps_fitting (P := fun r' => r.custody.Moves r'.custody)
    (fun hchore hsound hfits hr => hr.trans (hchore.moves hrests hsound hfits)) hsound (.refl _)

end

/-! ## From rest to rest -/

variable {due : List (Expired Task)}

theorem moves_perform (hr : r.AtRest due) (c : Command) (hfits₀ : r.transports.Fits)
    (hfits : (r.perform c).transports.Fits) : r.custody.Moves (r.perform c).custody :=
  (chores_perform (hr.admits_rested hfits₀ c)).moves trivial hr.sound hfits

theorem moves_act (hr : r.AtRest due) {a : Act} (ha : a.isTimer = false) (hfits₀ : r.transports.Fits) :
    (r.act a).transports.Fits → r.custody.Moves (r.act a).custody := by
  refine act_cases (T := .rested) ha (fun _ => trivial) (fun _ => hr.ripe hfits₀) (fun _ => .refl _)
    (fun _ _ => .refl _) (fun ready _ => ?_) fun hchores => hchores.moves trivial hr.sound
  unfold resetInterrupter
  split <;> exact .refl _

theorem moves_fire (hr : r.AtRest due) {e : Expired Task} (he : e ∈ due) (hfits₀ : r.transports.Fits)
    (hfits : (r.fire e).transports.Fits) : r.custody.Moves (r.fire e).custody := by
  rcases chores_fire (hr.yields_rested hfits₀ he) with hchores | ⟨i, c, -, -, -, hchores⟩
  · exact hchores.moves trivial hr.sound hfits
  · have htaken : (r.updateChannel i ({ · with timer := none })).custody = r.custody :=
      custody_updateChannel r i fun _ _ => rfl
    exact htaken ▸ hchores.moves trivial hr.sound hfits

theorem moves_closed (hsound : r.transports.Sound) (hfits : r.closed.transports.Fits) :
    r.custody.Moves r.closed.custody :=
  have hfits₀ : r.transports.Fits := (trail_closed r).fits hfits
  (chores_closed (fun _ => trivial) (.inl hfits₀)).moves (T := .rested) trivial hsound hfits

end Reactor

namespace Course

variable {σ : Type} [Host σ] {x y : Course σ}

/-- The watch is tidy while the slots can be named. -/
theorem Step.tidy (h : x.Step y) (hkept : x.reactor.Kept x.due)
    (hx : x.reactor.transports.Fits → x.reactor.custody.Tidy) (hfits : y.reactor.transports.Fits) :
    y.reactor.custody.Tidy := by
  cases h with
  | request now q => exact hx hfits
  | dispatch max => exact hx hfits
  | world w => exact hx hfits
  | answer a => exact hx hfits
  | refresh hrunning =>
    have hidle := Reactor.idle_refreshOptions x.reactor
    have hwatch : x.reactor.refreshOptions.watch = x.reactor.watch := by
      unfold Reactor.refreshOptions
      split <;> rfl
    have hsame := Reactor.custody_congr hwatch hidle.channels hidle.transports
    exact hsame ▸ hx (hidle.transports ▸ hfits)
  | act hrunning ha =>
    have hopens : Reactor.OpensNone x.due x.reactor (x.reactor.act _) := Reactor.opensNone_act x.reactor ha
    have hfits₀ := hopens.trail.fits hfits
    exact (Reactor.moves_act (hkept.atRest hfits₀) ha hfits₀ hfits).tidy (hx hfits₀)
  | @command c rest hrunning hc =>
    have hhandled : Reactor.Handled x.due _ (x.reactor.withCommands rest) _ :=
      Reactor.handled_perform (x.reactor.withCommands rest) c
    have hfits₀ : x.reactor.transports.Fits := hhandled.trail.fits hfits
    have hrest := hkept.atRest_withCommands hfits₀ rest
    exact (Reactor.moves_perform hrest c hfits₀ hfits).tidy (hx hfits₀)
  | poll hrunning hdue => exact hx hfits
  | @fire e rest hrunning hdue =>
    have hfits₀ : x.reactor.transports.Fits := (Reactor.trail_fire x.reactor e).fits hfits
    exact (Reactor.moves_fire (hkept.atRest hfits₀) (hdue ▸ List.mem_cons_self) hfits₀ hfits).tidy (hx hfits₀)
  | stop hrunning hstopping hdue =>
    have hclosed := (Reactor.moves_closed hkept.sound hfits).tidy
      (hx ((Reactor.trail_closed x.reactor).fits hfits))
    exact fun m hm => hclosed m (Custody.mem_deregister.1 hm).1
  | start hrunning hdue callback endpoints =>
    intro m hm
    obtain rfl := List.mem_singleton.1 hm
    rfl

/-- **Between two handlers whatever is watched is held by whom it is watched for.** -/
theorem Reachable.tidy (h : x.Reachable) (hfits : x.reactor.transports.Fits) :
    x.reactor.custody.Tidy := by
  obtain ⟨o, w, hsteps⟩ := h
  induction hsteps with
  | refl =>
    intro m hm
    obtain rfl := List.mem_singleton.1 hm
    rfl
  | tail hsteps hstep ih => exact hstep.tidy (Reachable.kept ⟨o, w, hsteps⟩) ih hfits

end Course

end NetReactor
