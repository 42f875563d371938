import NetReactor.Proofs.Reactor.Rows

/-!
# What a move leaves alone

A move of one channel leaves every other channel as it is: its fields, its transports, and the connect
responses it had (`Spares`). The table of states goes along with the channels, and the arena keeps its
stack right. **What is told is told properly** (`Emission.Proper`): a connect response carries a
connection that the loop holds exactly when it reports success, and a lost connection is closed before
its loss is told.
-/

namespace NetReactor

/-- Whether an event answers an open of a channel. -/
def Event.answers (i : Nat) : Event → Bool
  | .connectResponse channel _ _ => channel = i
  | _ => false

/-- An event of channel `i` that is told as it should be. -/
structure Emission.Proper (σ : Type) [Host σ] (i : Nat) (m : Emission) : Prop where
  response : ∀ {channel status h?}, m.event = .connectResponse channel status h? → channel = i ∧
    (h?.isSome → m.held) ∧ (Host.ErrorsNonzero σ → (status = Status.ok ↔ h?.isSome))
  lost : ∀ {channel status h}, m.event = .connectionLost channel status h → m.isOpen = false

namespace Service

theorem isLive_close (s : Service) (h : Handle) (status : Status) :
    (s.updateConnection h (·.close status)).isLive h = false := by
  unfold isLive connection? updateConnection
  simp only [Array.getElem?_modify, if_true]
  cases s.connections[h.serial]? <;> simp [Connection.close]

end Service

namespace Reactor

variable {σ : Type}

/-- How many connect responses a channel had. -/
def answers (r : Reactor σ) (i : Nat) : Nat := r.service.emitted.toList.countP (·.event.answers i)

/-- A channel is as before. -/
structure Spares (i : Nat) (r r' : Reactor σ) : Prop where
  channel : r'.channel? i = r.channel? i
  live : ∀ id, r'.Live i id ↔ r.Live i id
  answers : r'.answers i = r.answers i

theorem Spares.refl (i : Nat) (r : Reactor σ) : Spares i r r := ⟨rfl, fun _ => Iff.rfl, rfl⟩

theorem Spares.trans {i : Nat} {r r' r'' : Reactor σ} (h : Spares i r r') (h' : Spares i r' r'') :
    Spares i r r'' :=
  ⟨h'.channel.trans h.channel, fun id => (h'.live id).trans (h.live id), h'.answers.trans h.answers⟩

/-- Other threads see the channels' states. -/
def Mirrored (r : Reactor σ) : Prop := r.service.states = r.channels.map (·.state)

theorem channel?_updateChannel_of_ne {i j : Nat} (hne : j ≠ i) (r : Reactor σ)
    (f : Channel → Channel) : (r.updateChannel i f).channel? j = r.channel? j := by
  simp [channel?, updateChannel, Ne.symm hne]

theorem mirrored_updateChannel {r : Reactor σ} {i : Nat} {f : Channel → Channel}
    (hf : ∀ c, r.channel? i = some c → (f c).state = c.state) (h : r.Mirrored) :
    (r.updateChannel i f).Mirrored := by
  refine h.trans (List.ext_getElem? fun k => ?_)
  rw [updateChannel, List.getElem?_map, List.getElem?_map, List.getElem?_modify]
  by_cases hk : i = k
  · subst hk
    cases hc : r.channels[i]? with
    | none => rfl
    | some c => simp [hf c hc]
  · cases r.channels[k]? <;> simp [hk]

theorem mirrored_setState {r : Reactor σ} (i : Nat) (state : ChannelState) (h : r.Mirrored) :
    (r.setState i state).Mirrored := by
  have hstates : r.service.states = r.channels.map (·.state) := h
  refine List.ext_getElem? fun k => ?_
  simp only [setState, hstates, List.getElem?_map, List.getElem?_modify, List.getElem?_set,
    List.length_map]
  by_cases hk : i = k
  · subst hk
    cases hc : r.channels[i]? with
    | none => simp [List.getElem?_eq_none_iff.1 hc]
    | some c => simp [(List.getElem?_eq_some_iff.1 hc).1]
  · cases r.channels[k]? <;> simp [hk]

theorem emitted_record (r : Reactor σ) (e : Event) :
    (r.record e).service.emitted.toList = r.service.emitted.toList ++ [r.emission e] := by
  simp [record]

theorem answers_record (r : Reactor σ) (e : Event) (i : Nat) :
    (r.record e).answers i = r.answers i + if e.answers i then 1 else 0 := by
  simp only [answers, emitted_record, List.countP_append, List.countP_singleton]
  rfl

variable [Host σ] {r r' : Reactor σ} {i j : Nat}

theorem emitted_of_plays {s s' : Service} (h : s.Plays s') : s'.emitted = s.emitted :=
  congrArg (·.2.1) h.stage

theorem states_of_plays {s s' : Service} (h : s.Plays s') : s'.states = s.states :=
  congrArg (·.1) h.stage

/-- All that was told, in order. -/
def chronicle (r : Reactor σ) : List Event := r.service.emitted.toList.map (·.event)

omit [Host σ] in
theorem chronicle_congr (h : r'.service.emitted = r.service.emitted) : r'.chronicle = r.chronicle := by
  rw [chronicle, chronicle, h]

/-- An event is told once, whatever the application plays upon it. -/
@[simp] theorem chronicle_emit (r : Reactor σ) (e : Event) :
    (r.emit e).chronicle = r.chronicle ++ [e] := by
  obtain ⟨s, w, hplays, heq⟩ := exists_emit r e
  have hemitted : (r.emit e).service.emitted = (r.record e).service.emitted := by
    rw [heq]
    exact emitted_of_plays hplays
  rw [chronicle_congr hemitted, chronicle, emitted_record, List.map_append]
  rfl

omit [Host σ] in
@[simp] theorem chronicle_updateChannel (r : Reactor σ) (i : Nat) (f : Channel → Channel) :
    (r.updateChannel i f).chronicle = r.chronicle := rfl

omit [Host σ] in
@[simp] theorem chronicle_setState (r : Reactor σ) (i : Nat) (state : ChannelState) :
    (r.setState i state).chronicle = r.chronicle := rfl

omit [Host σ] in
@[simp] theorem chronicle_dropTimer (r : Reactor σ) (i : Nat) :
    (r.dropTimer i).chronicle = r.chronicle := by
  unfold dropTimer
  split <;> rfl

@[simp] theorem chronicle_scheduleReconnect (r : Reactor σ) (i : Nat) :
    (r.scheduleReconnect i).chronicle = r.chronicle := by
  unfold scheduleReconnect
  split
  · exact chronicle_dropTimer r i
  · rfl

@[simp] theorem chronicle_releaseSocket (r : Reactor σ) (i : Nat) :
    (r.releaseSocket i).chronicle = r.chronicle := by
  unfold releaseSocket
  split <;> rfl

/-- **An open that fails is told so, and nothing else is.** -/
theorem chronicle_openFailed {c : Channel} (hc : r.channel? i = some c) (status : Status) :
    (r.openFailed i status).chronicle = r.chronicle ++ [.connectResponse i status none] := by
  have htold : ((r.givenUp i status).emit (.connectResponse i status none)).chronicle =
      r.chronicle ++ [.connectResponse i status none] := by
    simp [givenUp]
  refine openFailed_cases (fun hnone => ?_) (fun _ _ _ => htold) fun _ _ _ => ?_
  · exact absurd (hnone.symm.trans hc) (by simp)
  · rw [chronicle_scheduleReconnect, htold]

/-! ## The arena and the table of states -/

theorem Move.sound (h : Move i r r') (hsound : r.transports.Sound) : r'.transports.Sound := by
  cases h with
  | aside hservice hchannels htransports => exact htransports ▸ hsound
  | transport id hf => exact Arena.sound_modify hsound id _
  | announce mask d => exact Arena.sound_insertWith hsound _
  | greet mask d hplays channel payload => exact Arena.sound_insertWith hsound _
  | lose status ht hi hplays => exact Arena.sound_remove hsound _
  | _ => exact hsound

theorem Trail.sound (h : Trail r r') (hsound : r.transports.Sound) : r'.transports.Sound :=
  h.keeps (P := (·.transports.Sound)) (fun hmove => hmove.sound) hsound

/-- What a move keeps while the slots can be named, a trail keeps if they can be named at its end. -/
theorem Trail.keeps_fitting {P : Reactor σ → Prop}
    (hP : ∀ {i r r'}, Move i r r' → r.transports.Sound → r'.transports.Fits → P r → P r') (h : Trail r r')
    (hsound : r.transports.Sound) (hr : P r) : r'.transports.Fits → P r' := by
  induction h with
  | refl => exact fun _ => hr
  | tail htrail hmove ih =>
    obtain ⟨i, hmove⟩ := hmove
    exact fun hfits => hP hmove (Trail.sound htrail hsound) hfits (ih (Nat.le_trans hmove.size_le hfits))

/-- So does a row of chores. -/
theorem Chores.keeps_fitting {T : Terms} {P : Reactor σ → Prop}
    (hP : ∀ {i r r'}, Chore T i r r' → r.transports.Sound → r'.transports.Fits → P r → P r')
    (h : Chores T r r') (hsound : r.transports.Sound) (hr : P r) : r'.transports.Fits → P r' := by
  induction h with
  | refl => exact fun _ => hr
  | tail hchores hchore ih =>
    obtain ⟨i, -, hchore⟩ := hchore
    exact fun hfits => hP hchore ((Chores.trail hchores).sound hsound) hfits (ih (hchore.path.fits hfits))

theorem Move.mirrored (h : Move i r r') (hmirrored : r.Mirrored) : r'.Mirrored := by
  cases h with
  | aside hservice hchannels htransports =>
    rw [Mirrored, hservice, hchannels]
    exact hmirrored
  | play hplay => exact (states_of_plays (.single hplay)).trans hmirrored
  | channel hf => exact mirrored_updateChannel (fun c hc => (hf c hc).1) hmirrored
  | state s => exact mirrored_setState i s hmirrored
  | drop hh => exact mirrored_updateChannel (fun _ _ => rfl) hmirrored
  | take => exact mirrored_updateChannel (fun _ _ => rfl) hmirrored
  | arm now delay htask => exact mirrored_updateChannel (fun _ _ => rfl) hmirrored
  | transport id hf => exact hmirrored
  | refuse h => exact hmirrored
  | packet ht channel payload => exact hmirrored
  | announce mask d => exact hmirrored
  | greet mask d hplays channel payload => exact (states_of_plays hplays).trans hmirrored
  | lose status ht hi hplays => exact (states_of_plays hplays).trans hmirrored

theorem Trail.mirrored (h : Trail r r') (hmirrored : r.Mirrored) : r'.Mirrored :=
  h.keeps (P := Mirrored) (fun hmove => hmove.mirrored) hmirrored

/-! ## What is told -/

theorem proper_packet (m : Emission) {channel : Nat} {h : Handle} {payload : Bytes}
    (hm : m.event = .packet channel h payload) : m.Proper σ i :=
  ⟨fun heq => by simp [hm] at heq, fun heq => by simp [hm] at heq⟩

/-- **A new transport is held under its handle's identifier**, and all others as before. -/
theorem get?_addTransport (hsound : r.transports.Sound) {mask : ChannelMask} {d : Descriptor}
    (hfits : (r.addTransport i mask d).2.transports.Fits) (id : TransportId) :
    (r.addTransport i mask d).2.transports.get? id =
      if id = (r.addTransport i mask d).1.id then some ⟨(r.addTransport i mask d).1, d, .new, .read⟩
      else r.transports.get? id := by
  have hget := Arena.get?_insertWith hsound hfits id
  by_cases hid : id = (r.addTransport i mask d).1.id
  · rw [if_pos hid]
    subst hid
    exact hget.trans (if_pos rfl)
  · rw [if_neg hid]
    exact hget.trans (if_neg hid)

theorem channel_addTransport (r : Reactor σ) (i : Nat) (mask : ChannelMask) (d : Descriptor) :
    (r.addTransport i mask d).1.channel = i := rfl

/-- The new connection is held when it is announced. -/
theorem proper_announced (hsound : r.transports.Sound) (mask : ChannelMask) (d : Descriptor)
    (hfits : (r.addTransport i mask d).2.transports.Fits) :
    ((r.addTransport i mask d).2.emission
      (.connectResponse i Status.ok (some (r.addTransport i mask d).1))).Proper σ i := by
  refine ⟨fun heq => ?_, fun heq => by simp [emission] at heq⟩
  obtain ⟨rfl, rfl, rfl⟩ := Event.connectResponse.inj heq
  refine ⟨rfl, fun _ => ?_, fun _ => by simp⟩
  have hheld := get?_addTransport hsound hfits (r.addTransport i mask d).1.id
  rw [if_pos rfl] at hheld
  simp [emission, Event.handle?, Arena.contains, hheld]

theorem proper_refuse {status : Status} (h : Host.ErrorsNonzero σ → status ≠ Status.ok) :
    (r.emission (.connectResponse i status none)).Proper σ i := by
  refine ⟨fun heq => ?_, fun heq => by simp [emission] at heq⟩
  obtain ⟨rfl, rfl, rfl⟩ := Event.connectResponse.inj heq
  exact ⟨rfl, fun hsome => by simp at hsome, fun herrors => by simp [h herrors]⟩

omit [Host σ] in
/-- The connection is closed when its loss is told. -/
theorem emitted_farewell (r : Reactor σ) (t : Transport) (status : Status) :
    ∃ m : Emission, (r.farewell t status).service.emitted.toList = r.service.emitted.toList ++ [m] ∧
      m.event = .connectionLost t.handle.channel status t.handle ∧ m.isOpen = false := by
  refine ⟨_, emitted_record _ _, rfl, ?_⟩
  exact Service.isLive_close r.service t.handle status

/-- **What a move tells is told properly.** -/
theorem Move.tells (h : Move i r r') (hsound : r.transports.Sound) (hfits : r'.transports.Fits) :
    ∃ new, r'.service.emitted.toList = r.service.emitted.toList ++ new ∧
      ∀ m ∈ new, m.Proper σ i := by
  have hnothing : r'.service.emitted = r.service.emitted →
      ∃ new, r'.service.emitted.toList = r.service.emitted.toList ++ new ∧
        ∀ m ∈ new, m.Proper σ i := fun heq => ⟨[], by simp [heq], by simp⟩
  cases h with
  | aside hservice hchannels htransports => exact hnothing (congrArg (·.emitted) hservice)
  | play hplay => exact hnothing (emitted_of_plays (.single hplay))
  | refuse h =>
    refine ⟨_, emitted_record _ _, fun m hm => ?_⟩
    rw [List.mem_singleton.1 hm]
    exact proper_refuse h
  | packet ht channel payload =>
    refine ⟨_, emitted_record _ _, fun m hm => ?_⟩
    rw [List.mem_singleton.1 hm]
    exact proper_packet _ rfl
  | announce mask d =>
    refine ⟨_, emitted_record _ _, fun m hm => ?_⟩
    rw [List.mem_singleton.1 hm]
    exact proper_announced hsound mask d hfits
  | @greet s mask d hplays channel payload =>
    obtain ⟨m, hm, hproper⟩ : ∃ m : Emission, (r.announced i mask d).service.emitted.toList =
        r.service.emitted.toList ++ [m] ∧ m.Proper σ i :=
      ⟨_, emitted_record _ _, proper_announced hsound mask d hfits⟩
    let r₁ : Reactor σ := { r.announced i mask d with service := s }
    refine ⟨[m] ++ [r₁.emission (.packet channel (r.addTransport i mask d).1 payload)], ?_,
      fun m' hm' => ?_⟩
    · rw [← List.append_assoc, ← hm, ← emitted_of_plays hplays]
      exact emitted_record r₁ _
    · rcases List.mem_append.1 hm' with hm' | hm'
      · rwa [List.mem_singleton.1 hm']
      · rw [List.mem_singleton.1 hm']
        exact proper_packet _ rfl
  | lose status ht hi hplays =>
    obtain ⟨m, hm, hevent, hclosed⟩ := emitted_farewell r _ status
    refine ⟨[m], ?_, fun m' hm' => ?_⟩
    · rw [← hm, ← emitted_of_plays hplays]
    · rw [List.mem_singleton.1 hm']
      exact ⟨fun heq => by simp [hevent] at heq, fun _ => hclosed⟩
  | _ => exact hnothing rfl

theorem Path.sound (h : Path i r r') (hsound : r.transports.Sound) : r'.transports.Sound :=
  h.trail.sound hsound

/-! ## Other channels -/

theorem answers_of_tells {new : List Emission} (hne : j ≠ i)
    (heq : r'.service.emitted.toList = r.service.emitted.toList ++ new)
    (hproper : ∀ m ∈ new, m.Proper σ i) : r'.answers j = r.answers j := by
  have hzero : new.countP (·.event.answers j) = 0 := by
    refine List.countP_eq_zero.2 fun m hm hanswers => ?_
    cases hevent : m.event with
    | connectResponse channel status h? =>
      rw [hevent] at hanswers
      have hchannel : channel = j := by simpa [Event.answers] using hanswers
      exact hne (hchannel.symm.trans ((hproper m hm).response hevent).1)
    | connectionLost channel status h => simp [Event.answers, hevent] at hanswers
    | packet channel h payload => simp [Event.answers, hevent] at hanswers
  rw [answers, heq, List.countP_append, hzero]
  rfl

theorem live_addTransport (hsound : r.transports.Sound) {mask : ChannelMask} {d : Descriptor}
    (hfits : (r.addTransport i mask d).2.transports.Fits) (k : Nat) (id : TransportId) :
    (r.addTransport i mask d).2.Live k id ↔
      r.Live k id ∨ k = i ∧ id = (r.addTransport i mask d).1.id := by
  simp only [Live, get?_addTransport hsound hfits]
  by_cases hid : id = (r.addTransport i mask d).1.id
  · have hnone : r.transports.get? id = none :=
      Arena.get?_of_slot_eq hsound hfits (congrArg TransportId.slot hid)
    simp [hid, hid ▸ hnone, channel_addTransport, eq_comm]
  · simp [hid]

omit [Host σ] in
theorem live_modify (r : Reactor σ) (id : TransportId) {f : Transport → Transport}
    (hf : ∀ t, (f t).handle = t.handle) (k : Nat) (id' : TransportId) :
    Live { r with transports := r.transports.modify id f } k id' ↔ r.Live k id' := by
  simp only [Live, Arena.get?_modify]
  cases r.transports.get? id' with
  | none => simp
  | some t => by_cases hid : id' = id <;> simp [hid, hf]

theorem Move.channel?_of_ne (h : Move i r r') (hne : j ≠ i) : r'.channel? j = r.channel? j := by
  cases h with
  | aside hservice hchannels htransports => rw [channel?, channel?, hchannels]
  | channel hf => exact channel?_updateChannel_of_ne hne r _
  | state s => exact channel?_updateChannel_of_ne hne r _
  | drop hh => exact channel?_updateChannel_of_ne hne _ _
  | take => exact channel?_updateChannel_of_ne hne r _
  | arm now delay htask => exact channel?_updateChannel_of_ne hne _ _
  | _ => rfl

theorem Move.live_of_ne (h : Move i r r') (hsound : r.transports.Sound)
    (hfits : r'.transports.Fits) (hne : j ≠ i) (id : TransportId) : r'.Live j id ↔ r.Live j id := by
  cases h with
  | aside hservice hchannels htransports => rw [Live, Live, htransports]
  | transport id' hf => exact live_modify r id' hf j id
  | announce mask d =>
    refine (live_addTransport hsound hfits j id).trans ?_
    simp [hne]
  | greet mask d hplays channel payload =>
    refine (live_addTransport hsound hfits j id).trans ?_
    simp [hne]
  | @lose id' t s status ht hi hplays =>
    refine (live_remove r id' j id).trans ⟨And.left, fun hlive => ⟨hlive, ?_⟩⟩
    rintro rfl
    obtain ⟨t', ht', hj⟩ := hlive
    obtain rfl := Option.some.inj (ht.symm.trans ht')
    exact hne (hj.symm.trans hi)
  | _ => exact Iff.rfl

/-- **A move of one channel spares every other.** -/
theorem Move.spares (h : Move i r r') (hsound : r.transports.Sound) (hfits : r'.transports.Fits)
    (hne : j ≠ i) : Spares j r r' := by
  obtain ⟨new, hnew, hproper⟩ := h.tells hsound hfits
  exact ⟨h.channel?_of_ne hne, h.live_of_ne hsound hfits hne, answers_of_tells hne hnew hproper⟩

theorem Path.spares (h : Path i r r') (hsound : r.transports.Sound) (hfits : r'.transports.Fits)
    (hne : j ≠ i) : Spares j r r' := by
  induction h with
  | refl => exact .refl j r
  | tail hpath hmove ih =>
    exact (ih (Nat.le_trans hmove.size_le hfits)).trans
      (hmove.spares (Path.sound hpath hsound) hfits hne)

/-- Whatever is told along a trail is told properly. -/
theorem Trail.tells (h : Trail r r') (hsound : r.transports.Sound) (hfits : r'.transports.Fits) :
    ∃ new, r'.service.emitted.toList = r.service.emitted.toList ++ new ∧
      ∀ m ∈ new, ∃ i, m.Proper σ i := by
  refine h.keeps_fitting (P := fun r' => ∃ new,
    r'.service.emitted.toList = r.service.emitted.toList ++ new ∧ ∀ m ∈ new, ∃ i, m.Proper σ i)
    (fun hmove hsound hfits ih => ?_) hsound ⟨[], by simp, by simp⟩ hfits
  obtain ⟨new, hnew, hproper⟩ := ih
  obtain ⟨more, hmore, hproper'⟩ := hmove.tells hsound hfits
  refine ⟨new ++ more, by rw [hmore, hnew, List.append_assoc], fun m hm => ?_⟩
  rcases List.mem_append.1 hm with hm | hm
  · exact hproper m hm
  · exact ⟨_, hproper' m hm⟩

end Reactor

end NetReactor
