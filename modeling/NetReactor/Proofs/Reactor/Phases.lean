import NetReactor.Proofs.Reactor.Course
import NetReactor.Proofs.Reactor.Rest

/-!
# Every channel at rest

**Whatever the loop does, between two handlers every channel is in one of its phases** (`AtRest`). What a
handler does for one channel is told by that channel's lemma, and every other is spared. Beside the
phases a handler tells which open it took up (`Handled`), and for a client no other is begun.
-/

namespace NetReactor

open Timer (Expired)

namespace Reactor

variable {σ : Type}

/-- The slots, the table of states, the timers and the channels are as they are between handlers. -/
structure AtRest (r : Reactor σ) (due : List (Expired Task)) : Prop where
  sound : r.transports.Sound
  mirrored : r.Mirrored
  desk : (r.desk due).Sound
  settled : ∀ {i c}, r.channel? i = some c → r.Settled due i c

/-- A channel has begun to open as `mask` says. -/
def Begins (due : List (Expired Task)) (i : Nat) (mask : ChannelMask) (r r' : Reactor σ) : Prop :=
  ∃ c', r'.channel? i = some c' ∧ c'.mask = mask ∧ r'.Settled due i c' ∧
    (mask.isServer = false → r'.undertaken i = r.undertaken i + 1)

variable [Host σ] {due : List (Expired Task)} {r r' r'' : Reactor σ} {i : Nat} {c : Channel}
  {new : List (Nat × ChannelMask)}

/-- From rest to rest, where `new` is the open that is taken up, if one is. -/
structure Handled (due : List (Expired Task)) (new : List (Nat × ChannelMask)) (r r' : Reactor σ) :
    Prop where
  trail : Trail r r'
  valid : ∀ {i mask}, (i, mask) ∈ new → mask.isValid = true
  rests : r.AtRest due → r'.transports.Fits → ∀ {i c}, r.channel? i = some c →
    (∀ mask, (i, mask) ∉ new) ∧ Rests due i c r r' ∨
      ∃ mask, new = [(i, mask)] ∧ Begins due i mask r r'

/-- From rest to rest, and no open is taken up. -/
abbrev OpensNone (due : List (Expired Task)) : Reactor σ → Reactor σ → Prop := Handled due []

theorem Handled.atRest (h : Handled due new r r') (hr : r.AtRest due) (hfits : r'.transports.Fits) :
    r'.AtRest due := by
  refine ⟨h.trail.sound hr.sound, h.trail.mirrored hr.mirrored, (h.trail.desk due).sound hr.desk,
    fun {i c'} hc' => ?_⟩
  obtain ⟨c, hc⟩ := h.trail.exists_channel hc'
  rcases h.rests hr hfits hc with ⟨-, c'', hc'', -, hsettled, -⟩ | ⟨-, -, c'', hc'', -, hsettled, -⟩
  · exact Option.some.inj (hc'.symm.trans hc'') ▸ hsettled
  · exact Option.some.inj (hc'.symm.trans hc'') ▸ hsettled

theorem OpensNone.rests (h : OpensNone due r r') (hr : r.AtRest due) (hfits : r'.transports.Fits)
    (hc : r.channel? i = some c) : Rests due i c r r' := by
  rcases Handled.rests h hr hfits hc with ⟨-, hrests⟩ | ⟨mask, hnew, -⟩
  · exact hrests
  · simp at hnew

theorem opensNone_of_rests (htrail : Trail r r') (h : r.AtRest due → r'.transports.Fits →
    ∀ {i c}, r.channel? i = some c → Rests due i c r r') : OpensNone due r r' :=
  ⟨htrail, by simp, fun hr hfits {_ _} hc => .inl ⟨by simp, h hr hfits hc⟩⟩

/-- One thing after another, the first without an open; an open by the second is of the same mask. -/
theorem OpensNone.handled (h : OpensNone due r r') (h' : Handled due new r' r'')
    (hsame : ∀ {i mask c}, new = [(i, mask)] → r'.channel? i = some c → c.mask = mask) :
    Handled due new r r'' := by
  refine ⟨Trail.trans (Handled.trail h) h'.trail, h'.valid, fun hr hfits {i c} hc => ?_⟩
  have hfits' := h'.trail.fits hfits
  obtain ⟨c', hc', hmask, -, hundertaken⟩ := h.rests hr hfits' hc
  rcases h'.rests (h.atRest hr hfits') hfits hc' with ⟨hnot, hrests⟩ | ⟨mask, hnew, hbegins⟩
  · exact .inl ⟨hnot, hrests.of_eq hmask hundertaken⟩
  · have hmask' := hsame hnew hc'
    obtain ⟨c'', hc'', hmask'', hsettled, hmore⟩ := hbegins
    refine .inr ⟨mask, hnew, c'', hc'', hmask'', hsettled, fun hserver => ?_⟩
    rw [hmore hserver, hundertaken (by rwa [← hmask, hmask'])]

theorem OpensNone.trans (h : OpensNone due r r') (h' : OpensNone due r' r'') : OpensNone due r r'' :=
  h.handled h' fun hnew => by simp at hnew

theorem opensNone_foldl {α : Type} {f : Reactor σ → α → Reactor σ} (hf : ∀ r x, OpensNone due r (f r x))
    (xs : List α) (r : Reactor σ) : OpensNone due r (xs.foldl f r) := by
  induction xs generalizing r with
  | nil => exact opensNone_of_rests (.refl r) fun hr _ _ _ hc => .refl hc (hr.settled hc)
  | cons x rest ih => exact (hf r x).trans (ih _)

/-! ## What each handler does -/

/-- What only other channels' handlers would change. -/
theorem Spares.rests (h : Spares i r r') (hc : r.channel? i = some c) (hs : r.Settled due i c)
    (htrail : Trail r r') : Rests due i c r r' := by
  refine ⟨c, h.channel.trans hc, rfl, hs.carry h.live (htrail.desk due).follows, fun _ => ?_⟩
  rw [undertaken, undertaken, h.channel, h.answers]

theorem opensNone_of_same (htrail : Trail r r') (hchannels : r'.channels = r.channels)
    (hlive : ∀ i id, r'.Live i id ↔ r.Live i id) (hanswers : ∀ i, r'.answers i = r.answers i) :
    OpensNone due r r' :=
  opensNone_of_rests htrail fun hr _ i _ hc =>
    Spares.rests ⟨congrArg (·[i]?) hchannels, hlive i, hanswers i⟩ hc (hr.settled hc) htrail

theorem Idle.opensNone (h : r.Idle r') : OpensNone due r r' :=
  opensNone_of_same h.trail h.channels (fun i => live_congr h.transports i)
    (answers_congr (emitted_of_plays h.plays))

/-- **A handler of one channel** is told by what it does for that channel. -/
theorem opensNone_of_path (htrail : Trail r r') (hpath : r.transports.Fits → Path i r r')
    (hown : r.AtRest due → r'.transports.Fits → ∀ {c}, r.channel? i = some c → Rests due i c r r') :
    OpensNone due r r' := by
  refine opensNone_of_rests htrail fun hr hfits {j c} hc => ?_
  by_cases hj : j = i
  · subst hj
    exact hown hr hfits hc
  · exact Spares.rests ((hpath (htrail.fits hfits)).spares hr.sound hfits hj) hc (hr.settled hc) htrail

theorem opensNone_loseTransport (r : Reactor σ) (id : TransportId) (status : Status) :
    OpensNone due r (r.loseTransport id status) := by
  cases ht : r.transports.get? id with
  | none =>
    rw [loseTransport_of_none ht]
    exact Idle.opensNone (.refl r)
  | some t =>
    have hpath := path_loseTransport ht status
    exact opensNone_of_path hpath.trail (fun _ => hpath) fun hr _ _ hc =>
      rests_loseTransport ht rfl hc (hr.settled hc) hr.desk status

theorem opensNone_closeTransport (r : Reactor σ) (id : TransportId) : OpensNone due r (r.closeTransport id) := by
  cases ht : r.transports.get? id with
  | none =>
    rw [closeTransport_of_none ht]
    exact Idle.opensNone (.refl r)
  | some t =>
    have hpath := path_closeTransport ht
    exact opensNone_of_path hpath.trail (fun _ => hpath) fun hr _ _ hc =>
      rests_closeTransport ht rfl hc (hr.settled hc) hr.desk

theorem opensNone_packets (r : Reactor σ) {id : TransportId} {t : Transport}
    (ht : r.transports.get? id = some t) (channel : Nat) (payloads : List Bytes) :
    OpensNone due r (r.emitAll (payloads.map (.packet channel t.handle))) := by
  refine opensNone_of_same (path_packets (i := 0) ht channel payloads).trail ?_
    (fun i => live_congr (transports_emitAll _ _) i) fun i => ?_
  · induction payloads generalizing r with
    | nil => rfl
    | cons payload rest ih =>
      exact (ih _ (by rwa [transports_emit])).trans (channels_emit _ _)
  · induction payloads generalizing r with
    | nil => rfl
    | cons payload rest ih =>
      exact (ih _ (by rwa [transports_emit])).trans (answers_emit _ _ i)

theorem opensNone_transport (r : Reactor σ) (id : TransportId) {f : Transport → Transport}
    (hf : ∀ t, (f t).handle = t.handle) :
    OpensNone due r { r with transports := r.transports.modify id f } :=
  opensNone_of_same (path_transport (i := 0) r id hf).trail rfl (live_modify r id hf) fun _ => rfl

theorem opensNone_world (r : Reactor σ) (w : σ) : OpensNone due r { r with world := w } :=
  Idle.opensNone ⟨rfl, rfl, .refl _⟩

theorem opensNone_unpacked {id : TransportId} {t : Transport} (ht : r.transports.get? id = some t) :
    OpensNone due r (r.unpacked id t) := by
  let got := t.read r.options.framing r.world
  have hreceived : OpensNone due r (r.received id t) :=
    (opensNone_world r got.world).trans (opensNone_transport { r with world := got.world } id fun _ => by rfl)
  have ht₁ : (r.received id t).transports.get? id = some { t with assembler := got.assembler } := by
    simp [received, got, Arena.get?_modify, ht]
  exact hreceived.trans (opensNone_packets (r.received id t) ht₁ t.handle.channel (r.arrivals t))

theorem opensNone_readTransport (r : Reactor σ) (id : TransportId) : OpensNone due r (r.readTransport id) :=
  readTransport_cases (Idle.opensNone (.refl r)) (fun _ ht => opensNone_unpacked ht) fun _ ht status =>
    (opensNone_unpacked ht).trans (opensNone_loseTransport _ id status)

theorem opensNone_flushTransports (r : Reactor σ) : OpensNone due r r.flushTransports := by
  obtain ⟨failed, r', hidle, heq⟩ := exists_flushTransports r
  rw [heq]
  have hlose : ∀ (r : Reactor σ) (f : TransportId × Status), OpensNone due r (r.loseTransport f.1 f.2) :=
    fun r f => opensNone_loseTransport r f.1 f.2
  exact hidle.opensNone.trans (opensNone_foldl hlose _ _)

theorem opensNone_updateInterest (r : Reactor σ) (id : TransportId) : OpensNone due r (r.updateInterest id) :=
  updateInterest_cases (Idle.opensNone (.refl r)) fun _ _ _ _ =>
    (opensNone_transport r id fun _ => by rfl).trans (Idle.opensNone ⟨rfl, rfl, .refl _⟩)

theorem opensNone_updateInterests (r : Reactor σ) : OpensNone due r r.updateInterests :=
  opensNone_foldl opensNone_updateInterest _ r

theorem opensNone_serveChannel (r : Reactor σ) (i : Nat) : OpensNone due r (r.serveChannel i) :=
  opensNone_of_path (path_serveChannel r i).trail (fun _ => path_serveChannel r i) fun hr hfits _ hc =>
    rests_serveChannel hc (hr.settled hc) hr.sound hr.desk hfits

theorem opensNone_closeChannel (r : Reactor σ) (i : Nat) : OpensNone due r (r.closeChannel i) :=
  opensNone_of_path (trail_closeChannel r i) path_closeChannel fun _ hfits _ hc =>
    rests_closeChannel hc ((trail_closeChannel r i).fits hfits)

theorem opensNone_act (r : Reactor σ) {a : Act} (ha : a.isTimer = false) : OpensNone due r (r.act a) := by
  cases a with
  | waitTimeout => exact (idle_waitTimeout r).opensNone
  | await d => exact (idle_await r d).opensNone
  | reset ready => exact (idle_resetInterrupter r ready).opensNone
  | serve x =>
    simp only [act, serveIfChannel]
    split
    · exact opensNone_serveChannel r _
    · exact Idle.opensNone (.refl r)
  | read x =>
    simp only [act, readIfTransport]
    split
    · split
      · exact opensNone_readTransport r _
      · exact Idle.opensNone (.refl r)
    · exact Idle.opensNone (.refl r)
  | flush => exact opensNone_flushTransports r
  | updateInterests => exact opensNone_updateInterests r
  | pollTimers => simp [Act.isTimer] at ha
  | fire e => simp [Act.isTimer] at ha

/-- What changes nothing of the channels may come first. -/
theorem Idle.handled (h : r.Idle r') (h' : Handled due new r' r'') : Handled due new r r'' := by
  refine ⟨Trail.trans h.trail h'.trail, h'.valid, fun hr hfits {i c} hc => ?_⟩
  have hfits' := h'.trail.fits hfits
  have hc' : r'.channel? i = some c := (congrArg (·[i]?) h.channels).trans hc
  have hundertaken : r'.undertaken i = r.undertaken i := by
    rw [undertaken_of_channel hc, undertaken_of_channel hc',
      answers_congr (emitted_of_plays h.plays)]
  rcases h'.rests (h.opensNone.atRest hr hfits') hfits hc' with ⟨hnot, hrests⟩ | ⟨mask, hnew, hbegins⟩
  · exact .inl ⟨hnot, hrests.of_eq rfl fun _ => hundertaken⟩
  · obtain ⟨c'', hc'', hmask, hsettled, hmore⟩ := hbegins
    refine .inr ⟨mask, hnew, c'', hc'', hmask, hsettled, fun hserver => ?_⟩
    rw [hmore hserver, hundertaken]

/-! ## Opens -/

omit [Host σ] in
theorem eq_of_taken {j : Nat} {mask mask' : ChannelMask} (h : r.taken i mask = [(j, mask')]) :
    i = j ∧ mask = mask' := by
  simp only [taken] at h
  split at h
  · simpa using h
  · simp at h

omit [Host σ] in
theorem exists_channel_of_taken {mask : ChannelMask} (h : r.taken i mask ≠ []) :
    r.taken i mask = [(i, mask)] ∧ mask.isValid = true ∧
      ∃ c, r.channel? i = some c ∧ c.state ≠ .opening := by
  unfold taken at *
  split at h
  · rename_i htaken
    rw [if_pos htaken]
    rw [Bool.and_eq_true, Option.any_eq_true] at htaken
    obtain ⟨hvalid, c, hc, hstate⟩ := htaken
    exact ⟨rfl, hvalid, c, hc, of_decide_eq_true hstate⟩
  · simp at h

/-- An open that is not taken up is ignored. -/
theorem openChannel_of_not_taken {mask : ChannelMask} (h : r.taken i mask = []) :
    r.openChannel i mask = r := by
  cases hc : r.channel? i with
  | none => simp only [openChannel, hc]
  | some c =>
    rw [openChannel_of_some hc, if_pos]
    by_cases hvalid : mask.isValid = true
    · simpa [taken, hc, hvalid] using h
    · simp [hvalid]

theorem handled_openChannel (r : Reactor σ) (i : Nat) (mask : ChannelMask) :
    Handled due (r.taken i mask) r (r.openChannel i mask) := by
  by_cases htaken : r.taken i mask = []
  · rw [htaken, openChannel_of_not_taken htaken]
    exact Idle.opensNone (.refl r)
  · obtain ⟨hnew, hvalid, c, hc, hstate⟩ := exists_channel_of_taken htaken
    have htrail := trail_openChannel r i mask
    rw [hnew]
    refine ⟨htrail, by simp [hvalid], fun hr hfits {j cj} hcj => ?_⟩
    by_cases hj : j = i
    · subst hj
      obtain rfl := Option.some.inj (hc.symm.trans hcj)
      exact .inr ⟨mask, rfl,
        exists_openChannel hc (hr.settled hc) hvalid hstate hr.sound hr.desk hfits⟩
    · have hspares := (path_openChannel (htrail.fits hfits) mask).spares hr.sound hfits hj
      exact .inl ⟨by simp [hj], hspares.rests hcj (hr.settled hcj) htrail⟩

theorem opensNone_path_rests (hpath : Path i r r') (hown : r.AtRest due → r'.transports.Fits →
    ∀ {c}, r.channel? i = some c → Rests due i c r r') : OpensNone due r r' :=
  opensNone_of_path hpath.trail (fun _ => hpath) hown

theorem opensNone_resolved (r : Reactor σ) (a : Resolution) : OpensNone due r (r.resolved a) :=
  opensNone_path_rests (path_resolved r a) fun hr hfits _ hc =>
    rests_resolved hc (hr.settled hc) hr.sound hr.desk hfits

theorem opensNone_setRemote (r : Reactor σ) (i : Nat) (host : Option String) (port : Option UInt16) :
    OpensNone due r (r.setRemote i host port) :=
  opensNone_path_rests (path_setRemote r i host port) fun hr hfits _ hc =>
    rests_setRemote hc (hr.settled hc) hr.sound hr.desk hfits

theorem opensNone_setLocalPort (r : Reactor σ) (i : Nat) (port : UInt16) :
    OpensNone due r (r.updateChannel i ({ · with localPort := port })) := by
  have hpath : Path i r (r.updateChannel i ({ · with localPort := port })) :=
    path_updateChannel r i fun _ => by exact ⟨rfl, rfl⟩
  refine opensNone_path_rests hpath fun hr _ c hc => ?_
  have hc' : (r.updateChannel i ({ · with localPort := port })).channel? i =
      some { c with localPort := port } := by simp [hc]
  refine ⟨_, hc', rfl, ((hr.settled hc).trail hpath.trail rfl).of_standing rfl (.inr rfl), fun _ => ?_⟩
  rw [undertaken_of_channel hc, undertaken_of_channel hc']
  rfl

/-- **A command takes up the open it comes to**, and no other. -/
theorem handled_perform (r : Reactor σ) (c : Command) : Handled due (r.takenBy c) r (r.perform c) := by
  cases c with
  | openChannel i mask => exact handled_openChannel r i mask
  | closeChannel i => exact opensNone_closeChannel r i
  | closeTransport id => exact opensNone_closeTransport r id
  | reopen i id =>
    have hclose : OpensNone due r (r.closeTransport id) := opensNone_closeTransport r id
    simp only [perform, takenBy]
    cases hc : (r.closeTransport id).channel? i with
    | none => exact hclose
    | some c =>
      refine hclose.handled (handled_openChannel _ i c.mask) fun {j mask cj} hnew hcj => ?_
      obtain ⟨rfl, rfl⟩ := eq_of_taken hnew
      rw [Option.some.inj (hc.symm.trans hcj)]
  | resolved a => exact opensNone_resolved r a
  | setRemote i host port => exact opensNone_setRemote r i host port
  | setLocalPort i port => exact opensNone_setLocalPort r i port

/-! ## Timers -/

omit [Host σ] in
theorem undertaken_taken (r : Reactor σ) (i : Nat) :
    (r.updateChannel i ({ · with timer := none })).undertaken i = r.undertaken i := by
  rw [undertaken, undertaken, channel?_updateChannel_self]
  cases r.channel? i <;> rfl

/-- A connect timeout that fires gives its open up. -/
theorem rests_connectTimeout {g : Timer.Handle} (hc : r.channel? i = some c)
    (htimer : c.timer = some g) (hs : r.Settled due i c) (hdesk : (r.desk due).Sound) :
    let r₁ := r.updateChannel i ({ · with timer := none })
    Rests due i c r (if (r₁.channel? i).any (·.state = .opening) then
      r₁.openFailed i Status.connectTimeout else r₁) := by
  intro r₁
  have hpath₁ : Path i r r₁ := .single .take
  have hc₁ : r₁.channel? i = some { c with timer := none } := channel?_taken hc
  have hdesk₁ := (hpath₁.trail.desk due).sound hdesk
  have hopens : ∀ hopening : r.Opening due i c, Rests due i c r
      (if (r₁.channel? i).any (·.state = .opening) then
        r₁.openFailed i Status.connectTimeout else r₁) := by
    intro hopening
    rw [if_pos (by simp [hc₁, hopening.state])]
    exact (rests_openFailed hc₁ hopening.state hopening.alone hdesk₁ _).of_eq rfl
      fun _ => undertaken_taken r i
  cases hs with
  | closed hstate hsocket hpending halone _ =>
    rw [if_neg (by simp [hc₁, hstate])]
    have hshut : Shut { c with timer := none } := ⟨hstate, hsocket, hpending, rfl⟩
    exact ⟨_, hc₁, rfl, hshut.settled halone, fun _ => undertaken_taken r i⟩
  | lookingUp hopening hsocket hpending hcache => exact hopens hopening
  | connecting hopening hclient hsocket hpending => exact hopens hopening
  | connected hstate hvalid hclient hsocket hpending hnone honly => simp [htimer] at hnone
  | serving hstate hvalid hserver hsocket hpending hnone => simp [htimer] at hnone

omit [Host σ] in
/-- The plan to try again is the timer of a closed channel. -/
theorem Settled.closed_of_reconnect {g : Timer.Handle} (hs : r.Settled due i c)
    (htimer : c.timer = some g) (hwaits : (r.desk due).Waits g (.reconnect i)) : c.state = .closed := by
  have hopens : ∀ hopening : r.Opening due i c, c.state = .closed := by
    intro hopening
    have hgiven := hopening.timer
    split at hgiven
    · obtain ⟨g', hg', htagged⟩ := hgiven
      obtain rfl := Option.some.inj (htimer.symm.trans hg')
      exact absurd (htagged.2 _ hwaits) (by simp)
    · simp [htimer] at hgiven
  cases hs with
  | closed hstate hsocket hpending halone _ => exact hstate
  | lookingUp hopening hsocket hpending hcache => exact hopens hopening
  | connecting hopening hclient hsocket hpending => exact hopens hopening
  | connected hstate hvalid hclient hsocket hpending hnone honly => simp [htimer] at hnone
  | serving hstate hvalid hserver hsocket hpending hnone => simp [htimer] at hnone

omit [Host σ] in
theorem taken_updateChannel (r : Reactor σ) (i : Nat) (mask : ChannelMask) :
    (r.updateChannel i ({ · with timer := none })).taken i mask = r.taken i mask := by
  rw [taken, taken, channel?_updateChannel_self]
  cases r.channel? i <;> rfl

/-- A connect timeout fails its channel's open, and no open is taken up. -/
theorem opensNone_connectTimeout (r : Reactor σ) (i : Nat) (g : Timer.Handle) (cancelled : Bool) :
    OpensNone due r (r.fire ⟨g, .connectTimeout i, cancelled⟩) := by
  by_cases htimer : (r.channel? i).bind (·.timer) = some g
  · obtain ⟨c, hc, htimer⟩ := Option.bind_eq_some_iff.1 htimer
    have htake : Path i r (r.updateChannel i ({ · with timer := none })) := .single .take
    simp only [fire, takeTimer_of_some hc htimer]
    refine opensNone_path_rests (.ite (htake.trans (path_openFailed _ i fun _ => by decide)) htake)
      fun hr _ c' hc' => ?_
    obtain rfl := Option.some.inj (hc.symm.trans hc')
    exact rests_connectTimeout hc htimer (hr.settled hc) hr.desk
  · simp only [fire, takeTimer_of_ne htimer]
    exact Idle.opensNone (.refl r)

/-- A plan to try again is taken out of its slot. -/
theorem opensNone_takeReconnect (hc : r.channel? i = some c) {g : Timer.Handle} (htimer : c.timer = some g)
    {cancelled : Bool} (he : ⟨g, .reconnect i, cancelled⟩ ∈ due) :
    OpensNone due r (r.updateChannel i ({ · with timer := none })) :=
  opensNone_path_rests (.single .take) fun hr _ c' hc' => by
    obtain rfl := Option.some.inj (hc.symm.trans hc')
    have hs := hr.settled hc
    have hstate := hs.closed_of_reconnect htimer (.inr ⟨_, he, rfl, rfl⟩)
    obtain ⟨hsocket, hpending, halone, -⟩ := hs.of_closed hstate
    have hshut : Shut { c with timer := none } := ⟨hstate, hsocket, hpending, rfl⟩
    exact ⟨_, channel?_taken hc, rfl, hshut.settled halone, fun _ => undertaken_taken r i⟩

/-- **A timer that fires takes up an open only if it is a closed channel's own plan to try again.** -/
theorem handled_fire (r : Reactor σ) {e : Expired Task} (he : e ∈ due) :
    Handled due (r.takenUpon e) r (r.fire e) := by
  obtain ⟨g, task, cancelled⟩ := e
  cases task with
  | user timer =>
    have hscript := Service.plays_runScript (Application.onTimer timer cancelled r.world) r.service
    exact Idle.opensNone ⟨rfl, rfl, hscript⟩
  | connectTimeout i => exact opensNone_connectTimeout r i g cancelled
  | reconnect i =>
    by_cases htimer : (r.channel? i).bind (·.timer) = some g
    · obtain ⟨c, hc, htimer⟩ := Option.bind_eq_some_iff.1 htimer
      have hc₁ := channel?_taken hc
      have hopens : OpensNone due r (r.updateChannel i ({ · with timer := none })) :=
        opensNone_takeReconnect hc htimer he
      simp only [fire, takenUpon, takeTimer_of_some hc htimer, hc, hc₁]
      by_cases hclosed : c.state = .closed
      · simp only [htimer, hclosed, decide_true, Bool.and_self, if_true]
        rw [← taken_updateChannel r i c.mask]
        refine hopens.handled (handled_openChannel _ i c.mask) fun {j mask cj} hnew hcj => ?_
        obtain ⟨rfl, rfl⟩ := eq_of_taken hnew
        rw [← Option.some.inj (hc₁.symm.trans hcj)]
      · simp only [hclosed, decide_false, Bool.and_false, Bool.false_eq_true, if_false]
        exact hopens
    · have hnew : r.takenUpon ⟨g, .reconnect i, cancelled⟩ = [] := by
        cases hc : r.channel? i with
        | none => simp [takenUpon, hc]
        | some c =>
          have hne : c.timer ≠ some g := by simpa [hc] using htimer
          simp [takenUpon, hc, hne]
      rw [hnew]
      simp only [fire, takeTimer_of_ne htimer]
      exact Idle.opensNone (.refl r)

/-- A timer of a channel is out of its slot before it does anything. -/
theorem trail_of_fire (r : Reactor σ) {e : Expired Task} (he : e.payload.channel? = some i) :
    ∃ r₁ : Reactor σ, Trail r r₁ ∧ Trail r₁ (r.fire e) ∧
      (r₁.desk due).slots[i]? ≠ some (some e.handle) := by
  have hown : ∀ {j}, e.payload = .connectTimeout j ∨ e.payload = .reconnect j → j = i := by
    rintro j (htask | htask)
    all_goals simpa [htask, Task.channel?] using he
  have hslot : ∀ r₁ : Reactor σ, (r₁.desk due).slots[i]? = (r₁.channel? i).map (·.timer) :=
    fun r₁ => List.getElem?_map
  have htaken : Trail r (r.updateChannel i ({ · with timer := none })) := (Path.single .take).trail
  have hempty : ∀ {c}, r.channel? i = some c →
      ((r.updateChannel i ({ · with timer := none })).desk due).slots[i]? ≠ some (some e.handle) := by
    intro c hc
    rw [hslot, channel?_taken hc]
    simp
  refine fire_cases (fun timer htask => ?_) (fun j htask hgone => ⟨r, .refl r, .refl r, ?_⟩)
    (fun j c htask hc _ => ?_) (fun j c htask hc _ _ => ?_) fun j c htask hc _ _ => ?_
  · simp [htask, Task.channel?] at he
  · obtain rfl := hown htask
    rw [hslot]
    cases hc : r.channel? j with
    | none => simp
    | some c => simpa [hc] using hgone
  · obtain rfl := hown htask
    exact ⟨_, htaken, .refl _, hempty hc⟩
  · obtain rfl := hown (.inl htask)
    exact ⟨_, htaken, (path_openFailed _ j fun _ => by decide).trail, hempty hc⟩
  · obtain rfl := hown (.inr htask)
    exact ⟨_, htaken, trail_openChannel _ j c.mask, hempty hc⟩

/-! ## From rest -/

omit [Host σ] in
/-- A channel that waits for its lookup is bare. -/
theorem Settled.bare_of_pending (h : r.Settled due i c) (hc : r.channel? i = some c)
    (hpending : c.pendingOpen = true) : r.Bare i .opening := by
  cases h with
  | lookingUp hopening hsocket _ hcache =>
    exact ⟨fun c' hc' => Option.some.inj (hc.symm.trans hc') ▸ ⟨hopening.state, hsocket⟩, hopening.alone⟩
  | closed hstate hsocket hnot halone htimer => simp [hnot] at hpending
  | connecting hopening hclient hsocket hnot => simp [hnot] at hpending
  | connected hstate hvalid hclient hsocket hnot htimer honly => simp [hnot] at hpending
  | serving hstate hvalid hserver hsocket hnot htimer => simp [hnot] at hpending

/-- **From rest opens may begin and go on.** -/
theorem AtRest.ripe (hr : r.AtRest due) (hfits : r.transports.Fits) : r.Ripe where
  waits hc hpending := (hr.settled hc).bare_of_pending hc hpending
  clears hc hstate := by
    obtain ⟨c₁, hc₁, hshut, halone, -⟩ := exists_cleared hc (hr.settled hc) hstate hfits
    exact ⟨fun c' hc' => Option.some.inj (hc₁.symm.trans hc') ▸ ⟨hshut.state, hshut.socket⟩, halone⟩
  valid hc hopened := (hr.settled hc).valid_of_opened hopened

variable {T : Terms}

/-- What is done with a command from rest. -/
theorem AtRest.admits (hr : r.AtRest due) (hfits : r.transports.Fits) (hall : ∀ j, T.concerns j)
    (hseeks : T.seeks) {c : Command} (hhears : c.isRequest = true ∨ T.hears)
    (hopens : ∀ {i mask}, c = .openChannel i mask → T.opens mask)
    (hreopens : ∀ {i id c'}, c = .reopen i id → (r.closeTransport id).channel? i = some c' → T.opens c'.mask) :
    T.Admits r c where
  all := hall
  seeks := hseeks
  named := .inl hfits
  hears := hhears
  opens := hopens
  reopens := hreopens
  ripe _ := hr.ripe hfits
  closes _ i id _ := by
    have hfits₁ : (r.closeTransport id).transports.Fits := by
      rw [transports_closeTransport]
      exact Arena.fits_of_size (Arena.size_remove _ _).symm hfits
    exact ((opensNone_closeTransport r id).atRest hr hfits₁).ripe hfits₁

theorem AtRest.admits_rested (hr : r.AtRest due) (hfits : r.transports.Fits) (c : Command) :
    Terms.rested.Admits r c :=
  hr.admits hfits (fun _ => trivial) trivial (.inr trivial) (fun _ => trivial) fun _ _ => trivial

/-- What is done when a timer that was due fires, from rest. -/
theorem AtRest.yields (hr : r.AtRest due) (hfits : r.transports.Fits) (hall : ∀ j, T.concerns j)
    (hseeks : T.seeks) {e : Expired Task} (he : e ∈ due)
    (hopens : ∀ {i c}, e.payload = .reconnect i → r.channel? i = some c → T.opens c.mask) : T.Yields r e where
  all := hall
  seeks := hseeks
  named := .inl hfits
  opens := hopens
  ripe _ i c htask hc htimer := by
    obtain ⟨g, task, cancelled⟩ := e
    obtain rfl : task = .reconnect i := htask
    exact ((opensNone_takeReconnect hc htimer he).atRest hr hfits).ripe hfits

theorem AtRest.yields_rested (hr : r.AtRest due) (hfits : r.transports.Fits) {e : Expired Task} (he : e ∈ due) :
    Terms.rested.Yields r e :=
  hr.yields hfits (fun _ => trivial) trivial he fun _ _ => trivial

/-! ## The end of a run -/

theorem atRest_shutdownChannel (hr : r.AtRest due) (hfits : (r.shutdownChannel i).transports.Fits) :
    (r.shutdownChannel i).AtRest due := by
  have htrail := trail_shutdownChannel r i
  refine ⟨htrail.sound hr.sound, htrail.mirrored hr.mirrored, (htrail.desk due).sound hr.desk,
    fun {j c'} hc' => ?_⟩
  obtain ⟨c, hc⟩ := htrail.exists_channel hc'
  by_cases hj : j = i
  · subst hj
    obtain ⟨c'', hc'', -, hshut, halone, -⟩ := exists_shutdownChannel hc (htrail.fits hfits)
    exact Option.some.inj (hc'.symm.trans hc'') ▸ hshut.settled halone
  · have hspares := (path_shutdownChannel (htrail.fits hfits)).spares hr.sound hfits hj
    obtain rfl := Option.some.inj (hc'.symm.trans (hspares.channel.trans hc))
    exact (hr.settled hc).carry hspares.live (htrail.desk due).follows

/-- Channels that were shut down, and those that were shut already, are shut. -/
theorem shut_of_shutdowns (hr : r.AtRest due) {is : List Nat}
    (hfits : (is.foldl shutdownChannel r).transports.Fits) :
    (is.foldl shutdownChannel r).AtRest due ∧
      ∀ {j c'}, (is.foldl shutdownChannel r).channel? j = some c' →
        (j ∈ is ∨ ∀ c, r.channel? j = some c → Shut c) → Shut c' := by
  induction is generalizing r with
  | nil => exact ⟨hr, fun hc' hor => hor.elim (by simp) fun hshut => hshut _ hc'⟩
  | cons i rest ih =>
    have hfits₁ : (r.shutdownChannel i).transports.Fits :=
      (trail_foldl trail_shutdownChannel rest _).fits hfits
    obtain ⟨hrest, hshut⟩ := ih (atRest_shutdownChannel hr hfits₁) hfits
    refine ⟨hrest, fun {j c'} hc' hor => hshut hc' ?_⟩
    by_cases hj : j ∈ rest
    · exact .inl hj
    · refine .inr fun c₁ hc₁ => ?_
      by_cases hji : j = i
      · subst hji
        obtain ⟨c, hc⟩ := (trail_shutdownChannel r j).exists_channel hc₁
        obtain ⟨c'', hc'', -, hshut'', -⟩ :=
          exists_shutdownChannel hc ((trail_shutdownChannel r j).fits hfits₁)
        exact Option.some.inj (hc₁.symm.trans hc'') ▸ hshut''
      · have hspares := (path_shutdownChannel ((trail_shutdownChannel r i).fits hfits₁)).spares
          hr.sound hfits₁ hji
        have hbefore := hor.resolve_left (by simp [hji, hj])
        exact hbefore c₁ (hspares.channel ▸ hc₁)

/-- **A teardown closes every channel.** -/
theorem atRest_closed (hr : r.AtRest due) (hfits : r.closed.transports.Fits) :
    r.closed.AtRest due ∧ ∀ {j c}, r.closed.channel? j = some c → Shut c := by
  let r₁ := r.transports.ids.foldl (fun r id => r.loseTransport id Status.closedHere) r
  have hlose : OpensNone due r r₁ := opensNone_foldl (fun r id => opensNone_loseTransport r id _) _ r
  have hfits₁ : r₁.transports.Fits := (trail_foldl trail_shutdownChannel _ r₁).fits hfits
  obtain ⟨hrest, hshut⟩ := shut_of_shutdowns (hlose.atRest hr hfits₁) hfits
  refine ⟨hrest, fun {j c} hc => hshut hc (.inl (List.mem_range.2 ?_))⟩
  have hlt : j < r.closed.channels.length := (List.getElem?_eq_some_iff.1 hc).1
  have hlength : r.closed.channels.length = r₁.channels.length :=
    (trail_foldl trail_shutdownChannel _ r₁).length
  exact hlength ▸ hlt

end Reactor

namespace Course

variable {σ : Type} [Host σ] {x y : Course σ}

/-- A step, where those that the loop handles alike are told together. -/
inductive Advance : Course σ → Course σ → Prop
  | handled {x : Course σ} {r : Reactor σ} {new : List (Nat × ChannelMask)}
      (h : Reactor.Handled x.due new x.reactor r) :
      Advance x { x with reactor := r, opens := new ++ x.opens }
  | poll {x : Course σ} (hdue : x.due = []) :
      Advance x { x with reactor := x.reactor.pollTimers.2, due := x.reactor.pollTimers.1 }
  | fire {x : Course σ} {e : Expired Task} {rest : List (Expired Task)} (hdue : x.due = e :: rest) :
      Advance x { x with
        reactor := x.reactor.fire e
        due := rest
        opens := x.reactor.takenUpon e ++ x.opens }
  | stop {x : Course σ} (hdue : x.due = []) : Advance x (x.withReactor x.reactor.teardown)
  | start {x : Course σ} (hrunning : x.service.running = false) (hdue : x.due = []) (callback : Nat)
      (endpoints : List Endpoint) :
      Advance x {
        reactor := .new (x.service.start callback endpoints.length) x.reactor.world endpoints
        due := []
        opens := []
        told := x.service.emitted.size
        made := x.service.connections.size }

theorem advance_of_opensNone {r : Reactor σ} (h : Reactor.OpensNone x.due x.reactor r) :
    x.Advance (x.withReactor r) :=
  .handled h

theorem advance_of_idle {r : Reactor σ} (h : x.reactor.Idle r) : x.Advance (x.withReactor r) :=
  advance_of_opensNone h.opensNone

theorem Step.advance (h : x.Step y) : x.Advance y := by
  cases h with
  | request now q => exact advance_of_idle ⟨rfl, rfl, Service.plays_perform _ now q⟩
  | dispatch max => exact advance_of_idle ⟨rfl, rfl, Service.plays_dispatch max _ _⟩
  | world w => exact advance_of_idle ⟨rfl, rfl, .refl _⟩
  | answer a => exact advance_of_idle ⟨rfl, rfl, .of_books rfl⟩
  | refresh hrunning => exact advance_of_idle (Reactor.idle_refreshOptions _)
  | act hrunning ha => exact advance_of_opensNone (Reactor.opensNone_act _ ha)
  | @command c rest hrunning hc =>
    exact .handled ((Reactor.idle_withCommands x.reactor rest).handled (Reactor.handled_perform _ c))
  | poll hrunning hdue => exact .poll hdue
  | fire hrunning hdue => exact .fire hdue
  | stop hrunning hstopping hdue => exact .stop hdue
  | start hrunning hdue callback endpoints => exact .start hrunning hdue callback endpoints

end Course

end NetReactor
