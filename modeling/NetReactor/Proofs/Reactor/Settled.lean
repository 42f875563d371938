import NetReactor.Proofs.Reactor.Frames
import NetReactor.Proofs.Timer.Desk

/-!
# What a channel holds between handlers

Between two handlers a channel is in one of five phases (`Settled`): closed, looking up, connecting,
connected or serving, and each fixes what socket, timer and transports the channel has. **A handler that
finds its channel settled leaves it settled** (`rests_openFailed` and its like), of the same mask, and no
open of a client is lost count of (`undertaken`): it is under way, or it was answered.
-/

namespace NetReactor

open Timer (Expired)

theorem ChannelMask.isServer_of_isValid {m : ChannelMask} (h : m.isValid = true) :
    m.isServer = !m.isClient := by
  unfold isValid at h
  cases hclient : m.isClient <;> cases hserver : m.isServer <;> simp [hclient, hserver] at h ⊢

theorem ChannelMask.isUdp_of_isValid {m : ChannelMask} (h : m.isValid = true) : m.isUdp = !m.isTcp := by
  unfold isValid at h
  cases htcp : m.isTcp <;> cases hudp : m.isUdp <;> simp [htcp, hudp] at h ⊢

namespace Reactor

variable {σ : Type}

/-! ## How often a channel was answered -/

/-- A channel with a transport and a queue as they are has the same number of connect responses. -/
theorem answers_congr {r r' : Reactor σ} (h : r'.service.emitted = r.service.emitted) (i : Nat) :
    r'.answers i = r.answers i := by
  rw [answers, answers, h]

@[simp] theorem answers_updateChannel (r : Reactor σ) (i j : Nat) (f : Channel → Channel) :
    (r.updateChannel i f).answers j = r.answers j := rfl

@[simp] theorem answers_setState (r : Reactor σ) (i j : Nat) (state : ChannelState) :
    (r.setState i state).answers j = r.answers j := rfl

@[simp] theorem answers_dropTimer (r : Reactor σ) (i j : Nat) :
    (r.dropTimer i).answers j = r.answers j := by
  unfold dropTimer
  split <;> rfl

variable [Host σ]

@[simp] theorem answers_releaseSocket (r : Reactor σ) (i j : Nat) :
    (r.releaseSocket i).answers j = r.answers j := by
  unfold releaseSocket
  split <;> rfl

@[simp] theorem answers_armTimer (r : Reactor σ) (i j : Nat) (delay : Duration) (task : Task) :
    (r.armTimer i delay task).answers j = r.answers j :=
  answers_dropTimer r i j

@[simp] theorem answers_scheduleReconnect (r : Reactor σ) (i j : Nat) :
    (r.scheduleReconnect i).answers j = r.answers j := by
  unfold scheduleReconnect
  split
  · exact answers_armTimer r i j _ _
  · rfl

@[simp] theorem answers_emit (r : Reactor σ) (e : Event) (i : Nat) :
    (r.emit e).answers i = r.answers i + if e.answers i then 1 else 0 := by
  obtain ⟨s, w, hplays, heq⟩ := exists_emit r e
  rw [heq, ← answers_record]
  exact answers_congr (r := r.record e) (emitted_of_plays hplays) i

@[simp] theorem answers_applyKeepAlive (r : Reactor σ) (d : Descriptor) (i : Nat) :
    (r.applyKeepAlive d).answers i = r.answers i := by
  unfold applyKeepAlive
  split <;> rfl

@[simp] theorem answers_addTransport (r : Reactor σ) (i j : Nat) (mask : ChannelMask)
    (d : Descriptor) : (r.addTransport i mask d).2.answers j = r.answers j := rfl

/-! ## The phases -/

/-- An open under way: a client's waits for its connect timeout. -/
structure Opening (r : Reactor σ) (due : List (Expired Task)) (i : Nat) (c : Channel) : Prop where
  state : c.state = .opening
  valid : c.mask.isValid = true
  alone : r.Alone i
  timer : if c.mask.isClient then
      ∃ h, c.timer = some h ∧ (r.desk due).Tagged h (.connectTimeout i)
    else c.timer = none

/-- The five phases. -/
inductive Settled (r : Reactor σ) (due : List (Expired Task)) (i : Nat) (c : Channel) : Prop
  | closed (hstate : c.state = .closed) (hsocket : c.socket = none) (hpending : c.pendingOpen = false)
      (halone : r.Alone i) (htimer : ∀ h, c.timer = some h →
        (c.mask.isClient && c.mask.isTcp) = true ∧ (r.desk due).Tagged h (.reconnect i))
  | lookingUp (hopening : r.Opening due i c) (hsocket : c.socket = none)
      (hpending : c.pendingOpen = true) (hcache : c.cache.state = .inProgress)
  | connecting (hopening : r.Opening due i c) (hclient : c.mask.isClient = true)
      (hsocket : c.socket.isSome = true) (hpending : c.pendingOpen = false)
  | connected (hstate : c.state = .opened) (hvalid : c.mask.isValid = true)
      (hclient : c.mask.isClient = true) (hsocket : c.socket = none)
      (hpending : c.pendingOpen = false) (htimer : c.timer = none)
      (hlive : ∃ id, ∀ id', r.Live i id' ↔ id' = id)
  | serving (hstate : c.state = .opened) (hvalid : c.mask.isValid = true)
      (hserver : c.mask.isClient = false) (hsocket : c.socket.isSome = true)
      (hpending : c.pendingOpen = false) (htimer : c.timer = none)

/-- The opens of a client that were answered or are under way. -/
def undertaken (r : Reactor σ) (i : Nat) : Nat :=
  r.answers i + if (r.channel? i).any (·.state = .opening) then 1 else 0

/-- A channel comes to rest, of the same mask; a client's opens are accounted for. -/
def Rests (due : List (Expired Task)) (i : Nat) (c : Channel) (r r' : Reactor σ) : Prop :=
  ∃ c', r'.channel? i = some c' ∧ c'.mask = c.mask ∧ r'.Settled due i c' ∧
    (c.mask.isServer = false → r'.undertaken i = r.undertaken i)

variable {due : List (Expired Task)} {r r' : Reactor σ} {i : Nat} {c c' : Channel}

omit [Host σ] in
/-- What a closed channel has: nothing, but perhaps a plan to try again. -/
theorem Settled.of_closed (h : r.Settled due i c) (hstate : c.state = .closed) :
    c.socket = none ∧ c.pendingOpen = false ∧ r.Alone i ∧ ∀ g, c.timer = some g →
      (c.mask.isClient && c.mask.isTcp) = true ∧ (r.desk due).Tagged g (.reconnect i) := by
  cases h with
  | closed _ hsocket hpending halone htimer => exact ⟨hsocket, hpending, halone, htimer⟩
  | lookingUp hopening hsocket hpending hcache => simp [hopening.state] at hstate
  | connecting hopening hclient hsocket hpending => simp [hopening.state] at hstate
  | connected hopened hvalid hclient hsocket hpending htimer honly => simp [hopened] at hstate
  | serving hopened hvalid hserver hsocket hpending htimer => simp [hopened] at hstate

omit [Host σ] in
/-- An open channel was opened with a valid mask. -/
theorem Settled.valid_of_opened (h : r.Settled due i c) (hstate : c.state = .opened) :
    c.mask.isValid = true := by
  cases h with
  | closed hclosed => simp [hclosed] at hstate
  | lookingUp hopening => simp [hopening.state] at hstate
  | connecting hopening => simp [hopening.state] at hstate
  | connected _ hvalid => exact hvalid
  | serving _ hvalid => exact hvalid

omit [Host σ] in
theorem undertaken_of_channel (hc : r.channel? i = some c) :
    r.undertaken i = r.answers i + if c.state = .opening then 1 else 0 := by
  simp [undertaken, hc]

omit [Host σ] in
theorem Opening.of_eq (h : r.Opening due i c) (hstate : c'.state = c.state) (hmask : c'.mask = c.mask)
    (htimer : c'.timer = c.timer) : r.Opening due i c' := by
  refine ⟨hstate.trans h.state, hmask ▸ h.valid, h.alone, ?_⟩
  rw [hmask, htimer]
  exact h.timer

omit [Host σ] in
/-- An open stays under way as long as its timer does and no transport comes. -/
theorem Opening.carry {due' : List (Expired Task)} (h : r.Opening due i c)
    (hlive : ∀ id, r'.Live i id ↔ r.Live i id) (hdesk : (r.desk due).Follows (r'.desk due')) :
    r'.Opening due' i c := by
  refine ⟨h.state, h.valid, fun id hid => h.alone id ((hlive id).1 hid), ?_⟩
  have htimer := h.timer
  split at htimer
  · rename_i hclient
    obtain ⟨g, hg, ht⟩ := htimer
    rw [if_pos hclient]
    exact ⟨g, hg, ht.follows hdesk⟩
  · rename_i hclient
    rwa [if_neg hclient]

theorem Opening.trail (h : r.Opening due i c) (htrail : Trail r r')
    (htransports : r'.transports = r.transports) : r'.Opening due i c :=
  h.carry (live_congr htransports i) (htrail.desk due).follows

omit [Host σ] in
/-- A channel stays settled while its transports and its timer stay. -/
theorem Settled.carry {due' : List (Expired Task)} (h : r.Settled due i c)
    (hlive : ∀ id, r'.Live i id ↔ r.Live i id) (hdesk : (r.desk due).Follows (r'.desk due')) :
    r'.Settled due' i c := by
  cases h with
  | closed hstate hsocket hpending halone htimer =>
    refine .closed hstate hsocket hpending (fun id hid => halone id ((hlive id).1 hid)) fun g hg => ?_
    exact ⟨(htimer g hg).1, (htimer g hg).2.follows hdesk⟩
  | lookingUp hopening hsocket hpending hcache =>
    exact .lookingUp (hopening.carry hlive hdesk) hsocket hpending hcache
  | connecting hopening hclient hsocket hpending =>
    exact .connecting (hopening.carry hlive hdesk) hclient hsocket hpending
  | connected hstate hvalid hclient hsocket hpending htimer honly =>
    obtain ⟨id, hid⟩ := honly
    exact .connected hstate hvalid hclient hsocket hpending htimer
      ⟨id, fun id' => (hlive id').trans (hid id')⟩
  | serving hstate hvalid hserver hsocket hpending htimer =>
    exact .serving hstate hvalid hserver hsocket hpending htimer

theorem Settled.trail (h : r.Settled due i c) (htrail : Trail r r')
    (htransports : r'.transports = r.transports) : r'.Settled due i c :=
  h.carry (live_congr htransports i) (htrail.desk due).follows

omit [Host σ] in
/-- What a channel knows of its target matters to a lookup only. -/
theorem Settled.of_standing (h : r.Settled due i c) (hsame : c'.standing = c.standing)
    (hcache : c.pendingOpen = false ∨ c'.cache = c.cache) : r.Settled due i c' := by
  simp only [Channel.standing, Channel.holding, Prod.mk.injEq] at hsame
  obtain ⟨⟨hmask, hsocket', hpending', htimer'⟩, hstate'⟩ := hsame
  cases h with
  | closed hstate hsocket hpending halone htimer =>
    rw [← htimer', ← hmask] at htimer
    exact .closed (hstate' ▸ hstate) (hsocket' ▸ hsocket) (hpending' ▸ hpending) halone htimer
  | lookingUp hopening hsocket hpending hwaits =>
    have hcache : c'.cache = c.cache := hcache.resolve_left (by simp [hpending])
    exact .lookingUp (hopening.of_eq hstate' hmask htimer') (hsocket' ▸ hsocket) (hpending' ▸ hpending)
      (hcache ▸ hwaits)
  | connecting hopening hclient hsocket hpending =>
    exact .connecting (hopening.of_eq hstate' hmask htimer') (hmask ▸ hclient) (hsocket' ▸ hsocket)
      (hpending' ▸ hpending)
  | connected hstate hvalid hclient hsocket hpending htimer honly =>
    exact .connected (hstate' ▸ hstate) (hmask ▸ hvalid) (hmask ▸ hclient) (hsocket' ▸ hsocket)
      (hpending' ▸ hpending) (htimer' ▸ htimer) honly
  | serving hstate hvalid hserver hsocket hpending htimer =>
    exact .serving (hstate' ▸ hstate) (hmask ▸ hvalid) (hmask ▸ hserver) (hsocket' ▸ hsocket)
      (hpending' ▸ hpending) (htimer' ▸ htimer)

omit [Host σ] in
/-- Nothing happens. -/
theorem Rests.refl (hc : r.channel? i = some c) (hs : r.Settled due i c) : Rests due i c r r :=
  ⟨c, hc, rfl, hs, fun _ => rfl⟩

omit [Host σ] in
/-- What a handler does first may have been done before. -/
theorem Rests.of_eq {r₁ : Reactor σ} {c₁ : Channel} (hmask : c₁.mask = c.mask)
    (hundertaken : c.mask.isServer = false → r₁.undertaken i = r.undertaken i)
    (h : Rests due i c₁ r₁ r') : Rests due i c r r' := by
  obtain ⟨c', hc', hmask', hsettled, hsame⟩ := h
  exact ⟨c', hc', hmask'.trans hmask, hsettled,
    fun hserver => (hsame (hmask ▸ hserver)).trans (hundertaken hserver)⟩

/-! ## The plan to try again -/

/-- What a shutdown leaves of a channel. -/
structure Shut (c : Channel) : Prop where
  state : c.state = .closed
  socket : c.socket = none
  pending : c.pendingOpen = false
  timer : c.timer = none

omit [Host σ] in
theorem Shut.settled (h : Shut c) (halone : r.Alone i) : r.Settled due i c :=
  .closed h.state h.socket h.pending halone fun g hg => by simp [h.timer] at hg

theorem desk_emit (r : Reactor σ) (e : Event) (due : List (Expired Task)) :
    (r.desk due).Moves ((r.emit e).desk due) := by
  obtain ⟨s, w, hplays, heq⟩ := exists_emit r e
  rw [heq]
  have hplayed : (r.desk due).Moves (desk { r.record e with service := s } due) :=
    desk_plays (s := (r.record e).service) due rfl rfl hplays
  exact hplayed

/-- **Under a new timer's handle waits that timer**, and nothing else. -/
theorem tagged_armTimer (hdesk : (r.desk due).Sound) (delay : Duration) (task : Task) :
    ((r.armTimer i delay task).desk due).Tagged r.service.nextTimer task := by
  have hdropped : (((r.dropTimer i).now.2).desk due).Sound :=
    ((path_dropTimer r i).trail.desk due).sound hdesk
  rw [← nextTimer_dropTimer r i]
  exact ⟨Nat.lt_succ_self _, fun task' hwaits => Desk.waits_insert_next hdropped hwaits⟩

theorem rests_scheduleReconnect (hc : r.channel? i = some c) (hshut : Shut c) (halone : r.Alone i)
    (hdesk : (r.desk due).Sound) (htcp : (c.mask.isClient && c.mask.isTcp) = true) :
    Rests due i c r (r.scheduleReconnect i) := by
  unfold scheduleReconnect
  split
  · rename_i delay _
    refine ⟨{ c with timer := some r.service.nextTimer }, by simp [hc], rfl, ?_, fun _ => ?_⟩
    · refine .closed hshut.state hshut.socket hshut.pending (alone_congr (by simp) halone) ?_
      intro g hg
      obtain rfl := Option.some.inj hg
      exact ⟨htcp, tagged_armTimer hdesk delay _⟩
    · simp [undertaken, hc]
  · exact ⟨c, hc, rfl, hshut.settled halone, fun _ => rfl⟩

/-! ## Opening -/

theorem rests_openFailed (hc : r.channel? i = some c) (hstate : c.state = .opening)
    (halone : r.Alone i) (hdesk : (r.desk due).Sound) (status : Status) :
    Rests due i c r (r.openFailed i status) := by
  let r₁ := (r.givenUp i status).emit (.connectResponse i status none)
  have hc₁ : r₁.channel? i = some { c with
      timer := none, socket := none, pendingOpen := false, lastStatus := status, state := .closed } := by
    simp [r₁, givenUp, hc]
  have halone₁ : r₁.Alone i := by
    refine alone_congr ?_ halone
    rw [transports_emit]
    exact (transports_releaseSocket _ i).trans (transports_dropTimer r i)
  have hundertaken : r₁.undertaken i = r.undertaken i := by
    rw [undertaken_of_channel hc, undertaken_of_channel hc₁]
    simp [r₁, givenUp, hstate, Event.answers]
  have hdesk₁ : (r₁.desk due).Sound :=
    (desk_emit _ _ due).sound (((path_givenUp r i status).trail.desk due).sound hdesk)
  have hshut : Shut { c with
      timer := none, socket := none, pendingOpen := false, lastStatus := status, state := .closed } :=
    ⟨rfl, rfl, rfl, rfl⟩
  refine openFailed_cases (fun hnone => ?_) (fun _ _ _ => ?_) fun c' hc' htcp => ?_
  · cases hc.symm.trans hnone
  · exact ⟨_, hc₁, rfl, hshut.settled halone₁, fun _ => hundertaken⟩
  · obtain rfl : c = c' := Option.some.inj (hc.symm.trans hc')
    exact (rests_scheduleReconnect hc₁ hshut halone₁ hdesk₁ htcp).of_eq rfl fun _ => hundertaken

/-- A client that waits for nothing else is connected. -/
theorem rests_connected (hc : r.channel? i = some c) (hopening : r.Opening due i c)
    (hclient : c.mask.isClient = true) (hsocket : c.socket = none) (hpending : c.pendingOpen = false)
    (hsound : r.transports.Sound) {d : Descriptor}
    (hfits : (r.connected i c.mask d).transports.Fits) :
    Rests due i c r (r.connected i c.mask d) := by
  let r₁ := if c.mask.isTcp then (r.dropTimer i).applyKeepAlive d else r.dropTimer i
  let r₂ := ((r₁.addTransport i c.mask d).2.updateChannel i
    ({ · with lastStatus := Status.ok })).setState i .opened
  have hconnected : r.connected i c.mask d = r₂.emit
    (.connectResponse i Status.ok (some (r₁.addTransport i c.mask d).1)) := rfl
  have hchannel₁ : r₁.channel? i = some { c with timer := none } := by
    by_cases htcp : c.mask.isTcp = true <;> simp [r₁, hc, htcp]
  have htransports₁ : r₁.transports = r.transports := by
    by_cases htcp : c.mask.isTcp = true <;> simp [r₁, htcp]
  have hanswers₁ : r₁.answers i = r.answers i := by
    by_cases htcp : c.mask.isTcp = true <;> simp [r₁, htcp]
  rw [hconnected] at hfits ⊢
  have hc' : (r₂.emit (.connectResponse i Status.ok (some (r₁.addTransport i c.mask d).1))).channel? i =
      some { c with timer := none, lastStatus := Status.ok, state := .opened } := by
    simp [r₂, hchannel₁]
  have hlive : ∀ id', Live (r₂.emit (.connectResponse i Status.ok
      (some (r₁.addTransport i c.mask d).1))) i id' ↔ id' = (r₁.addTransport i c.mask d).1.id := by
    intro id'
    rw [transports_emit] at hfits
    have hadded := live_addTransport (i := i) (htransports₁ ▸ hsound) hfits i id'
    have hnone : ¬ r₁.Live i id' := alone_congr htransports₁ hopening.alone id'
    have hkept : (r₂.emit (.connectResponse i Status.ok (some (r₁.addTransport i c.mask d).1))).transports =
        (r₁.addTransport i c.mask d).2.transports := transports_emit _ _
    rw [show Live (r₂.emit _) i id' ↔ (r₁.addTransport i c.mask d).2.Live i id' by
      rw [Live, Live, hkept], hadded]
    simp [hnone]
  refine ⟨_, hc', rfl, .connected rfl hopening.valid hclient hsocket hpending rfl ⟨_, hlive⟩, fun _ => ?_⟩
  rw [undertaken_of_channel hc, undertaken_of_channel hc']
  simp [r₂, hanswers₁, hopening.state, Event.answers]

theorem rests_startConnect (hc : r.channel? i = some c) (hopening : r.Opening due i c)
    (hclient : c.mask.isClient = true) (hsocket : c.socket = none) (hpending : c.pendingOpen = false)
    (hsound : r.transports.Sound) (hdesk : (r.desk due).Sound)
    (hfits : (r.startConnect i).transports.Fits) : Rests due i c r (r.startConnect i) := by
  have hfailed := fun (w : σ) => rests_openFailed (r := { r with world := w }) hc hopening.state
    hopening.alone hdesk
  revert hfits
  refine startConnect_cases (fun hnone => ?_) (fun _ _ _ _ => hfailed r.world _)
    (fun c' _ d w hc' _ _ hfits => ?_) (fun _ _ d w _ _ _ _ => ?_) fun _ _ e w _ _ _ _ => hfailed w _
  · cases hc.symm.trans hnone
  · obtain rfl : c = c' := Option.some.inj (hc.symm.trans hc')
    have hopening' := hopening.trail (path_world (i := i) r w).trail rfl
    exact rests_connected (r := { r with world := w }) hc hopening' hclient hsocket hpending hsound hfits
  · let r' := { r with world := w }.connecting i d
    have hpath : Path i r r' := (path_world r w).trans (path_connecting _ i d)
    have hc' : r'.channel? i = some { c with socket := some d } := by
      refine (channel?_updateChannel_self _ i _).trans ?_
      exact congrArg (Option.map _) hc
    have hopening' : r'.Opening due i { c with socket := some d } :=
      (hopening.trail hpath.trail rfl).of_eq rfl rfl rfl
    refine ⟨_, hc', rfl, .connecting hopening' hclient rfl hpending, fun _ => ?_⟩
    rw [undertaken_of_channel hc, undertaken_of_channel hc']
    rfl

/-- What a connecting socket shows: nothing yet, that it failed, or that it is connected. -/
theorem rests_finishConnect (hc : r.channel? i = some c) (hopening : r.Opening due i c)
    (hclient : c.mask.isClient = true) (hpending : c.pendingOpen = false) {d : Descriptor}
    (hsocket : c.socket = some d) (hsound : r.transports.Sound) (hdesk : (r.desk due).Sound)
    (hfits : (r.finishConnect i).transports.Fits) : Rests due i c r (r.finishConnect i) := by
  have hasked := fun w : σ => hopening.trail (path_world (i := i) r w).trail rfl
  revert hfits
  refine finishConnect_cases (fun hnone => ?_) (fun _ _ e w _ _ _ _ => ?_) (fun _ _ w _ _ _ _ _ => ?_)
    fun c' d' w hc' hd' _ _ hfits => ?_
  · simp [hc, hsocket] at hnone
  · exact rests_openFailed (r := { r with world := w }) hc hopening.state hopening.alone hdesk _
  · exact ⟨c, hc, rfl, .connecting (hasked w) hclient (by simp [hsocket]) hpending, fun _ => rfl⟩
  · obtain rfl : c = c' := Option.some.inj (hc.symm.trans hc')
    let r₁ := { r with world := w }.unbound i d'
    have hpath : Path i r r₁ := (path_world r w).trans (path_unbound _ i d')
    have hc₁ : r₁.channel? i = some { c with socket := none } := by
      refine (channel?_updateChannel_self _ i _).trans ?_
      exact congrArg (Option.map _) hc
    have hopening₁ : r₁.Opening due i { c with socket := none } :=
      (hopening.trail hpath.trail rfl).of_eq rfl rfl rfl
    have hrests := rests_connected hc₁ hopening₁ hclient rfl hpending hsound hfits
    refine hrests.of_eq rfl fun _ => ?_
    rw [undertaken_of_channel hc, undertaken_of_channel hc₁]
    rfl

theorem rests_startServer (hc : r.channel? i = some c) (hopening : r.Opening due i c)
    (hserver : c.mask.isClient = false) (hpending : c.pendingOpen = false)
    (hdesk : (r.desk due).Sound) : Rests due i c r (r.startServer i) := by
  have hfailed := fun (w : σ) => rests_openFailed (r := { r with world := w }) hc hopening.state
    hopening.alone hdesk
  refine startServer_cases (fun hnone => ?_) (fun _ _ _ => hfailed r.world _) (fun _ _ e w _ _ => hfailed w _)
    fun _ _ d w _ _ => ?_
  · cases hc.symm.trans hnone
  · have htimer := hopening.timer
    rw [if_neg (by simp [hserver])] at htimer
    refine ⟨{ c with socket := some d, lastStatus := Status.ok, state := .opened }, ?_, rfl, ?_, ?_⟩
    · have hchannel : ({ r with world := w }.watchFor d (.channel i) .read).channel? i = some c := hc
      simp [bound, hchannel]
    · exact .serving rfl hopening.valid hserver rfl hpending htimer
    · simp [ChannelMask.isServer_of_isValid hopening.valid, hserver]

theorem rests_establish (hc : r.channel? i = some c) (hopening : r.Opening due i c)
    (hsocket : c.socket = none) (hpending : c.pendingOpen = false) (hsound : r.transports.Sound)
    (hdesk : (r.desk due).Sound) (hfits : (r.establish i).transports.Fits) :
    Rests due i c r (r.establish i) := by
  unfold establish at hfits ⊢
  simp only [hc, Option.any_some] at hfits ⊢
  by_cases hclient : c.mask.isClient = true
  · rw [if_pos hclient] at hfits ⊢
    exact rests_startConnect hc hopening hclient hsocket hpending hsound hdesk hfits
  · rw [if_neg hclient] at hfits ⊢
    exact rests_startServer hc hopening (by simpa using hclient) hpending hdesk

theorem rests_startLookup (hc : r.channel? i = some c) (hopening : r.Opening due i c)
    (hsocket : c.socket = none) (hpending : c.pendingOpen = true) (hdesk : (r.desk due).Sound) :
    Rests due i c r (r.startLookup i) := by
  have hpath₁ : Path i r (r.inquiring i) := path_inquiring r i
  have hc₁ : (r.inquiring i).channel? i = some { c with cache := c.cache.begin } := by
    simp [inquiring, hc]
  have hundertaken : ∀ r₂ : Reactor σ, ∀ cache, r₂.answers i = r.answers i →
      r₂.channel? i = some { c with cache := cache } → r₂.undertaken i = r.undertaken i := by
    intro r₂ cache hanswers hc₂
    rw [undertaken_of_channel hc, undertaken_of_channel hc₂, hanswers]
  refine startLookup_cases (fun hnone => ?_) (fun _ w _ _ => ?_) fun _ w _ _ => ?_
  · cases hc.symm.trans hnone
  · refine ⟨_, hc₁, rfl, .lookingUp ?_ hsocket hpending rfl, fun _ => hundertaken _ _ rfl hc₁⟩
    refine .of_eq (c := c) ?_ rfl rfl rfl
    refine hopening.trail (Path.trail (i := i) (hpath₁.trans ?_)) rfl
    exact path_aside rfl rfl rfl
  · let r₂ := { r.inquiring i with world := w }.unanswered i
    have hpath₂ : Path i r r₂ := (hpath₁.trans (path_world _ w)).trans (path_unanswered _ i)
    have hc₂ : r₂.channel? i = some { c with
        cache := c.cache.begin.complete c.cache.begin.epoch (.error (.kind .other)) (Host.now w).1 } := by
      refine (channel?_updateChannel_self _ i _).trans ?_
      exact congrArg (Option.map _) hc₁
    have hrests := rests_openFailed hc₂ hopening.state (alone_congr rfl hopening.alone)
      ((hpath₂.trail.desk due).sound hdesk) Status.lookupFailed
    exact hrests.of_eq rfl fun _ => hundertaken r₂ _ rfl hc₂

/-- The wait for a target is over: an open goes on with the addresses that it has. -/
theorem rests_onward (hc : r.channel? i = some c) (hopening : r.Opening due i c)
    (hsocket : c.socket = none) (hsound : r.transports.Sound) (hdesk : (r.desk due).Sound)
    (hfits : (r.onward i).transports.Fits) : Rests due i c r (r.onward i) := by
  let r₁ := r.updateChannel i ({ · with pendingOpen := false })
  have hpath₁ : Path i r r₁ := path_updateChannel r i fun _ => ⟨rfl, rfl⟩
  have hc₁ : r₁.channel? i = some { c with pendingOpen := false } := by simp [r₁, hc]
  have hopening₁ : r₁.Opening due i { c with pendingOpen := false } :=
    (hopening.trail hpath₁.trail rfl).of_eq rfl rfl rfl
  have hrests := rests_establish hc₁ hopening₁ hsocket rfl hsound ((hpath₁.trail.desk due).sound hdesk) hfits
  refine hrests.of_eq rfl fun _ => ?_
  rw [undertaken_of_channel hc, undertaken_of_channel hc₁]
  rfl

/-- **An open that waits goes on, goes on waiting for its lookup, or fails.** -/
theorem rests_continueOpen (hc : r.channel? i = some c) (hopening : r.Opening due i c)
    (hsocket : c.socket = none) (hpending : c.pendingOpen = true) (hsound : r.transports.Sound)
    (hdesk : (r.desk due).Sound) (hfits : (r.continueOpen i).transports.Fits) :
    Rests due i c r (r.continueOpen i) := by
  let c₁ : Channel := { c with cache := c.cache.refresh r.options.lookupTtl r.now.1 }
  have hpath₁ : Path i r (r.refreshed i c) := path_refreshed r i c
  have hc₁ : (r.refreshed i c).channel? i = some c₁ := by
    refine (channel?_updateChannel_self _ i _).trans ?_
    exact congrArg (Option.map _) hc
  have hopening₁ : (r.refreshed i c).Opening due i c₁ :=
    (hopening.trail hpath₁.trail rfl).of_eq rfl rfl rfl
  have hdesk₁ : ((r.refreshed i c).desk due).Sound := (hpath₁.trail.desk due).sound hdesk
  have hfrom : ∀ {r' : Reactor σ}, Rests due i c₁ (r.refreshed i c) r' → Rests due i c r r' := by
    refine fun hrests => hrests.of_eq rfl fun _ => ?_
    rw [undertaken_of_channel hc, undertaken_of_channel hc₁]
    rfl
  have hsame : ∀ {c'}, r.channel? i = some c' → c' = c := fun hc' =>
    Option.some.inj (hc'.symm.trans hc)
  revert hfits
  refine continueOpen_cases (fun hidle => ?_) (fun _ _ _ _ => ?_) (fun _ hc' _ _ hfits => ?_)
    (fun _ hc' _ _ _ => ?_) (fun _ hc' _ hlooking _ => ?_) fun _ hc' _ _ _ => ?_
  · simp [hc, hpending] at hidle
  · exact rests_onward hc hopening hsocket hsound hdesk
  · cases hsame hc'
    exact hfrom (rests_onward hc₁ hopening₁ hsocket hsound hdesk₁ hfits)
  · cases hsame hc'
    exact hfrom (rests_startLookup hc₁ hopening₁ hsocket hpending hdesk₁)
  · cases hsame hc'
    exact hfrom (.refl hc₁ (.lookingUp hopening₁ hsocket hpending hlooking))
  · cases hsame hc'
    exact hfrom (rests_openFailed hc₁ hopening.state (alone_congr rfl hopening.alone) hdesk₁ _)

theorem continueOpen_of_not_pending (hc : r.channel? i = some c) (hpending : c.pendingOpen = false) :
    r.continueOpen i = r := by
  simp [continueOpen, hc, hpending]

/-- **An answer to a lookup ends the wait for it**, or is not wanted. -/
theorem rests_resolved {a : Resolution} (hc : r.channel? a.channel = some c)
    (hs : r.Settled due a.channel c) (hsound : r.transports.Sound) (hdesk : (r.desk due).Sound)
    (hfits : (r.resolved a).transports.Fits) : Rests due a.channel c r (r.resolved a) := by
  let c₁ : Channel := { c with
    cache := c.cache.complete a.epoch a.answer a.time, pendingOpen := false }
  have hpath₁ : Path a.channel r (r.answeredBy a c) := path_answeredBy r a c
  have hc₁ : (r.answeredBy a c).channel? a.channel = some c₁ := by simp [answeredBy, c₁, hc]
  have hundertaken : (r.answeredBy a c).undertaken a.channel = r.undertaken a.channel := by
    rw [undertaken_of_channel hc, undertaken_of_channel hc₁]
    rfl
  have hdesk₁ : ((r.answeredBy a c).desk due).Sound := (hpath₁.trail.desk due).sound hdesk
  have hwaited : c.pendingOpen = true →
      (r.answeredBy a c).Opening due a.channel c₁ ∧ c.socket = none := by
    intro hpending
    cases hs with
    | lookingUp hopening hsocket _ _ =>
      exact ⟨(hopening.trail hpath₁.trail rfl).of_eq rfl rfl rfl, hsocket⟩
    | _ => simp_all
  have hsame : ∀ {c'}, r.channel? a.channel = some c' → c' = c := fun hc' =>
    Option.some.inj (hc'.symm.trans hc)
  revert hfits
  refine resolved_cases (fun _ _ => .refl hc hs) (fun _ _ _ _ => .refl hc hs)
    (fun _ hc' _ hidle _ => ?_) (fun _ hc' _ hpending _ hfits => ?_) fun _ hc' _ hpending _ => ?_
  · cases hsame hc'
    refine ⟨_, hc₁, rfl, ?_, fun _ => hundertaken⟩
    refine (hs.trail hpath₁.trail rfl).of_standing ?_ (.inl hidle)
    simp [c₁, Channel.standing, Channel.holding, hidle]
  · cases hsame hc'
    obtain ⟨hopening₁, hsocket⟩ := hwaited hpending
    exact (rests_establish hc₁ hopening₁ hsocket rfl hsound hdesk₁ hfits).of_eq rfl fun _ => hundertaken
  · cases hsame hc'
    obtain ⟨hopening₁, -⟩ := hwaited hpending
    exact (rests_openFailed hc₁ hopening₁.state hopening₁.alone hdesk₁ _).of_eq rfl fun _ => hundertaken

/-- **A new target leaves an open channel alone**, and an open that waits goes on to it. -/
theorem rests_setRemote (hc : r.channel? i = some c) (hs : r.Settled due i c)
    (hsound : r.transports.Sound) (hdesk : (r.desk due).Sound) {host : Option String}
    {port : Option UInt16} (hfits : (r.setRemote i host port).transports.Fits) :
    Rests due i c r (r.setRemote i host port) := by
  revert hfits
  refine setRemote_cases (fun _ => .refl hc hs) fun c' e cache hc' _ hfits => ?_
  obtain rfl : c = c' := Option.some.inj (hc.symm.trans hc')
  let r₁ := r.updateChannel i ({ · with endpoint := e, cache := cache })
  let c₁ : Channel := { c with endpoint := e, cache := cache }
  have hpath₁ : Path i r r₁ := path_updateChannel r i fun _ => ⟨rfl, rfl⟩
  have hc₁ : r₁.channel? i = some c₁ := by simp [r₁, c₁, hc]
  have hundertaken : r₁.undertaken i = r.undertaken i := by
    rw [undertaken_of_channel hc, undertaken_of_channel hc₁]
    rfl
  cases hwaits : c.pendingOpen with
  | false =>
    have hidle : r₁.continueOpen i = r₁ := continueOpen_of_not_pending hc₁ hwaits
    rw [hidle]
    exact ⟨c₁, hc₁, rfl, (hs.trail hpath₁.trail rfl).of_standing rfl (.inl hwaits),
      fun _ => hundertaken⟩
  | true =>
    cases hs with
    | lookingUp hopening hnone _ hcache =>
      have hopening₁ : r₁.Opening due i c₁ := (hopening.trail hpath₁.trail rfl).of_eq rfl rfl rfl
      exact (rests_continueOpen hc₁ hopening₁ hnone hwaits hsound
        ((hpath₁.trail.desk due).sound hdesk) hfits).of_eq rfl fun _ => hundertaken
    | _ => simp_all

end Reactor

end NetReactor
