import NetReactor.Proofs.Reactor.Answers
import NetReactor.Proofs.Reactor.Plans

/-!
# Channels that sleep

A closed channel whose slot names no plan to try again sleeps (`Dormant`). **Whatever is done that takes
up no open of it leaves it asleep and answers nothing for it** (`Dormant.handled`): a transport would come
with an answer, without a transport there is no loss, and a plan is made only after a loss or an answer.
A close puts a channel to sleep, and so does the close of a client's connection.
-/

namespace NetReactor

open Timer (Expired)

/-- Whether an event leaves channel `i` without a connection: none came of an open, or one was lost. -/
def Event.bereaves (e : Event) (i : Nat) : Bool :=
  match e with
  | .connectResponse j _ none | .connectionLost j _ _ => j = i
  | _ => false

theorem Event.Fails.bereaves {σ : Type} [Host σ] {i : Nat} {e : Event} (h : e.Fails σ i) :
    e.bereaves i = true := by
  cases h <;> simp [Event.bereaves]

namespace Reactor

variable {σ : Type}

/-- From `r` to `r'` no event is told of a kind. -/
def TellsNone (p : Event → Bool) (r r' : Reactor σ) : Prop :=
  ∃ more, r'.service.emitted.toList = r.service.emitted.toList ++ more ∧ ∀ m ∈ more, p m.event = false

variable {r r' r'' : Reactor σ} {i k : Nat} {due : List (Expired Task)} {c : Channel} {p : Event → Bool}

namespace TellsNone

theorem of_emitted (h : r'.service.emitted = r.service.emitted) : TellsNone p r r' :=
  ⟨[], by simp [h], by simp⟩

theorem record {e : Event} (he : p e = false) : TellsNone p r (r.record e) := by
  refine ⟨_, emitted_record r e, fun m hm => ?_⟩
  rw [List.mem_singleton.1 hm]
  exact he

theorem trans (h : TellsNone p r r') (h' : TellsNone p r' r'') : TellsNone p r r'' := by
  obtain ⟨first, hfirst, hnone⟩ := h
  obtain ⟨more, hmore, hnone'⟩ := h'
  refine ⟨first ++ more, by rw [hmore, hfirst, List.append_assoc], fun m hm => ?_⟩
  exact (List.mem_append.1 hm).elim (hnone m) (hnone' m)

theorem news (h : TellsNone p r r') : ∀ m ∈ r'.news r, p m.event = false := by
  obtain ⟨more, hmore, hnone⟩ := h
  rwa [Reactor.news, hmore, ← Array.length_toList, List.drop_left]

/-- Nothing answers if as much is answered as before. -/
theorem of_answers {more : List Emission}
    (hmore : r'.service.emitted.toList = r.service.emitted.toList ++ more)
    (hanswers : r'.answers i = r.answers i) : TellsNone (Event.answers i) r r' := by
  refine ⟨more, hmore, fun m hm => ?_⟩
  rw [answers, hmore, List.countP_append] at hanswers
  have hzero : more.countP (·.event.answers i) = 0 := Nat.left_eq_add.1 hanswers.symm
  simpa using List.countP_eq_zero.1 hzero m hm

end TellsNone

/-! ## Without a transport -/

variable [Host σ]

theorem Trail.answers_le (h : Trail r r') (hsound : r.transports.Sound) (hfits : r'.transports.Fits) :
    r.answers i ≤ r'.answers i := by
  obtain ⟨more, hmore, -⟩ := h.tells hsound hfits
  rw [answers, answers, hmore, List.countP_append]
  exact Nat.le_add_right _ _

theorem answers_announced (r : Reactor σ) (i : Nat) (mask : ChannelMask) (d : Descriptor) :
    (r.announced i mask d).answers i = r.answers i + 1 := by
  simp [announced, answers_record, Event.answers]

theorem answers_greeted {mask : ChannelMask} {d : Descriptor} {s : Service}
    (h : (r.announced i mask d).service.Plays s) (k : Nat) (connection : Handle) (payload : Bytes) :
    ({ r.announced i mask d with service := s }.record (.packet k connection payload)).answers i =
      r.answers i + 1 := by
  rw [answers_record, ← answers_announced r i mask d]
  exact answers_congr (emitted_of_plays h) i

/-- A channel without a transport gets none but with an answer. -/
theorem Move.alone (h : Move k r r') (hsound : r.transports.Sound) (hfits : r'.transports.Fits)
    (halone : r.Alone i) (hanswers : r'.answers i = r.answers i) : r'.Alone i := by
  by_cases hk : i = k
  · subst hk
    cases h with
    | aside hservice hchannels htransports => exact alone_congr htransports halone
    | transport id hf => exact fun id' hid' => halone id' ((live_modify r id hf i id').1 hid')
    | announce mask d =>
      rw [answers_announced] at hanswers
      exact absurd hanswers (Nat.succ_ne_self _)
    | greet mask d hplays channel payload =>
      rw [answers_greeted hplays] at hanswers
      exact absurd hanswers (Nat.succ_ne_self _)
    | lose status ht hi hplays => exact absurd ⟨_, ht, hi⟩ (halone _)
    | _ => exact halone
  · exact fun id hid => halone id ((h.live_of_ne hsound hfits hk id).1 hid)

/-- It loses none, and no open of it fails. -/
theorem Move.unfailing (h : Move k r r') (halone : r.Alone i) (hanswers : r'.answers i = r.answers i) :
    TellsNone (·.bereaves i) r r' := by
  cases h with
  | aside hservice hchannels htransports => exact .of_emitted (congrArg (·.emitted) hservice)
  | play hplay => exact .of_emitted (emitted_of_plays (.single hplay))
  | @refuse status hstatus =>
    have hk : k ≠ i := by
      intro hk
      simp [answers_record, Event.answers, hk] at hanswers
    exact .record (by simpa [Event.bereaves] using hk)
  | packet ht channel payload => exact .record rfl
  | announce mask d =>
    have hadded : TellsNone (·.bereaves i) r (r.addTransport k mask d).2 := .of_emitted rfl
    exact hadded.trans (.record rfl)
  | @greet s mask d hplays channel payload =>
    have hadded : TellsNone (·.bereaves i) r (r.addTransport k mask d).2 := .of_emitted rfl
    have hplayed : TellsNone (·.bereaves i) (r.announced k mask d)
        { r.announced k mask d with service := s } := .of_emitted (emitted_of_plays hplays)
    exact (hadded.trans (.record rfl)).trans (hplayed.trans (.record rfl))
  | @lose id t s status ht hi hplays =>
    let r₁ : Reactor σ := { r with service := r.service.updateConnection t.handle (·.close status) }
    have hclosed : TellsNone (·.bereaves i) r r₁ := .of_emitted rfl
    have hne : t.handle.channel ≠ i := fun heq => halone id ⟨t, ht, heq⟩
    have htold : TellsNone (·.bereaves i) r₁ (r.farewell t status) := .record (by simp [Event.bereaves, hne])
    exact (hclosed.trans htold).trans (.of_emitted (emitted_of_plays hplays))
  | _ => exact .of_emitted rfl

/-- **As long as nothing is answered, a channel without a transport gets none and loses none.** -/
theorem Trail.still (h : Trail r r') (hsound : r.transports.Sound) (hfits : r'.transports.Fits)
    (halone : r.Alone i) (hanswers : r'.answers i = r.answers i) :
    r'.Alone i ∧ TellsNone (·.bereaves i) r r' := by
  induction h with
  | refl => exact ⟨halone, .of_emitted rfl⟩
  | @tail b r' htrail hmove ih =>
    obtain ⟨j, hmove⟩ := hmove
    have hfits₁ : b.transports.Fits := Nat.le_trans hmove.size_le hfits
    have hsound₁ := Trail.sound htrail hsound
    have hle₁ : r.answers i ≤ b.answers i := Trail.answers_le htrail hsound hfits₁
    have hle₂ : b.answers i ≤ r'.answers i :=
      Trail.answers_le (Relation.ReflTransGen.single ⟨j, hmove⟩) hsound₁ hfits
    obtain ⟨halone₁, hunfailing⟩ := ih hfits₁ (by omega)
    exact ⟨hmove.alone hsound₁ hfits halone₁ (by omega),
      hunfailing.trans (hmove.unfailing halone₁ (by omega))⟩

/-! ## Asleep -/

omit [Host σ] in
/-- What is no server, has no transport and is not opening is closed. -/
theorem Settled.closed_of_alone (h : r.Settled due i c) (halone : r.Alone i)
    (hstate : c.state ≠ .opening) (hserver : c.mask.isServer = false) : c.state = .closed := by
  cases h with
  | closed hclosed hsocket hpending _ htimer => exact hclosed
  | lookingUp hopening hsocket hpending hcache => exact absurd hopening.state hstate
  | connecting hopening hclient hsocket hpending => exact absurd hopening.state hstate
  | connected hopened hvalid hclient hsocket hpending htimer honly =>
    obtain ⟨id, hid⟩ := honly
    exact absurd ((hid id).2 rfl) (halone id)
  | serving hopened hvalid hnot hsocket hpending htimer =>
    simp [ChannelMask.isServer_of_isValid hvalid, hnot] at hserver

omit [Host σ] in
theorem slot_eq_some {g : Timer.Handle} (due : List (Expired Task)) :
    r.slot i = some g ↔ (r.desk due).slots[i]? = some (some g) := by
  rw [slot_eq, Option.join_eq_some_iff]
  rfl

omit [Host σ] in
theorem slot_of_channel (hc : r.channel? i = some c) : r.slot i = c.timer := by simp [slot, hc]

/-- Channel `i` is closed, and no plan is made to try again. -/
structure Dormant (r : Reactor σ) (due : List (Expired Task)) (i : Nat) : Prop where
  closed : ∃ c, r.channel? i = some c ∧ c.state = .closed ∧
    (r.service.running = true → c.mask.isServer = false)
  unplanned : ∀ {g}, r.slot i = some g → ¬ (r.desk due).Waits g (.reconnect i)

omit [Host σ] in
theorem Dormant.of_shut (hc : r.channel? i = some c) (hshut : Shut c)
    (hserver : r.service.running = true → c.mask.isServer = false) : r.Dormant due i := by
  refine ⟨⟨c, hc, hshut.state, hserver⟩, fun hslot => ?_⟩
  simp [slot_of_channel hc, hshut.timer] at hslot

/-- **A channel asleep sleeps on, and nothing is answered for it**, unless an open of it is taken up. -/
theorem Dormant.handled {due' : List (Expired Task)} {new : List (Nat × ChannelMask)}
    (hd : r.Dormant due i) (h : Handled due new r r') (horigins : TimersTraced due r r')
    (hnot : ∀ mask, (i, mask) ∉ new) (hrest : r.AtRest due) (hrunning : r.service.running = true)
    (hfits : r'.transports.Fits) (hsub : due' ⊆ due) :
    r'.Dormant due' i ∧ TellsNone (Event.answers i) r r' := by
  obtain ⟨c, hc, hclosed, hclient⟩ := hd.closed
  rcases h.rests hrest hfits hc with ⟨-, c', hc', hmask, hsettled, hsame⟩ | ⟨mask, rfl, -⟩
  case inr => exact absurd List.mem_cons_self (hnot mask)
  have hserver := hclient hrunning
  have hle : r.answers i ≤ r'.answers i := h.trail.answers_le hrest.sound hfits
  have hundertaken := hsame hserver
  rw [undertaken_of_channel hc, undertaken_of_channel hc', hclosed] at hundertaken
  simp only [reduceCtorEq, if_false, Nat.add_zero] at hundertaken
  have hstate : c'.state ≠ .opening := by
    intro hopening
    rw [hopening, if_pos rfl] at hundertaken
    omega
  have hanswers : r'.answers i = r.answers i := by rwa [if_neg hstate] at hundertaken
  obtain ⟨-, -, halone, -⟩ := (hrest.settled hc).of_closed hclosed
  obtain ⟨halone', hunfailing⟩ := h.trail.still hrest.sound hfits halone hanswers
  have hclosed' : c'.state = .closed := hsettled.closed_of_alone halone' hstate (hmask ▸ hserver)
  obtain ⟨more, hmore, -⟩ := h.trail.tells hrest.sound hfits
  refine ⟨⟨⟨c', hc', hclosed', fun _ => hmask ▸ hserver⟩, fun {g} hslot hwaits => ?_⟩,
    .of_answers hmore hanswers⟩
  have hmoves := h.trail.desk due
  by_cases hissued : g < r.service.nextTimer
  · -- a handle issued before is named now only if it was named then
    have hslot₀ : r.slot i = some g := by
      by_contra hne
      rw [slot_eq_some due] at hne
      exact hmoves.not_named hissued hne ((slot_eq_some due).1 hslot)
    refine hd.unplanned hslot₀ (hmoves.follows.waits hissued ?_)
    exact hwaits.imp_right fun ⟨x, hx, hsame⟩ => ⟨x, hsub hx, hsame⟩
  · rcases hwaits with ⟨e, he, hpayload⟩ | ⟨x, hx, hhandle, -⟩
    · cases horigins.origin he (by rw [hpayload]; rfl) with
      | waited he₀ hremains => exact hissued (hrest.desk.keyed.issued_of_lookup he₀)
      | armed _ honce hplanned hremains =>
        obtain ⟨m, hm, hfails⟩ := (hplanned i (hremains.payload.trans hpayload)).failed
        have hbereft := hfails.bereaves
        simp [hunfailing.news m hm] at hbereft
    · exact hissued (hhandle ▸ hrest.desk.due x (hsub hx))

theorem Dormant.idle (hd : r.Dormant due i) (h : r.Idle r') (hdesk : (r.desk due).Sound) :
    r'.Dormant due i ∧ TellsNone (Event.answers i) r r' := by
  obtain ⟨c, hc, hclosed, hserver⟩ := hd.closed
  have hc' : r'.channel? i = some c := (congrArg (·[i]?) h.channels).trans hc
  refine ⟨⟨⟨c, hc', hclosed, fun hrunning => hserver (h.trail.running.symm.trans hrunning)⟩,
    fun {g} hslot hwaits => ?_⟩, .of_emitted (emitted_of_plays h.plays)⟩
  have hslot₀ : r.slot i = some g := by rwa [slot_of_channel hc, ← slot_of_channel hc']
  have hissued := (hdesk.slots ((slot_eq_some due).1 hslot₀)).1
  exact hd.unplanned hslot₀ ((h.trail.desk due).follows.waits hissued hwaits)

theorem Dormant.poll (hd : r.Dormant [] i) (hdesk : (r.desk []).Sound) :
    r.pollTimers.2.Dormant r.pollTimers.1 i ∧ TellsNone (Event.answers i) r r.pollTimers.2 :=
  ⟨⟨hd.closed, fun hslot hwaits =>
    hd.unplanned hslot ((Desk.waits_poll hdesk rfl (Host.now r.world).1).1 hwaits)⟩, .of_emitted rfl⟩

/-! ## The end of a run -/

theorem answers_shutdownChannel (r : Reactor σ) (i j : Nat) :
    (r.shutdownChannel i).answers j = r.answers j := by
  rw [shutdownChannel_eq, answers_setState, answers_updateChannel, answers_closeTransports,
    answers_silenced]

theorem answers_closed (r : Reactor σ) (j : Nat) : r.closed.answers j = r.answers j := by
  have hfold : ∀ {α : Type} {f : Reactor σ → α → Reactor σ}, (∀ r x, (f r x).answers j = r.answers j) →
      ∀ (xs : List α) (r : Reactor σ), (xs.foldl f r).answers j = r.answers j := by
    intro α f hf xs
    induction xs with
    | nil => exact fun r => rfl
    | cons x rest ih => exact fun r => (ih _).trans (hf r x)
  have hshut := hfold (fun r i => answers_shutdownChannel r i j)
  exact (hshut _ _).trans (hfold (fun r id => answers_loseTransport r id _ j) _ _)

/-- **A teardown wakes no channel**, and answers none. -/
theorem dormant_teardown (hr : r.AtRest []) (hfits : r.teardown.transports.Fits)
    (hc : r.channel? i = some c) :
    r.teardown.Dormant [] i ∧ TellsNone (Event.answers i) r r.teardown := by
  have htrail := trail_closed r
  obtain ⟨c', hc'⟩ : ∃ c', r.closed.channel? i = some c' := htrail.exists_later hc
  have hshut := (atRest_closed hr hfits).2 hc'
  have hstopped : r.teardown.service.running = true → c'.mask.isServer = false := by
    simp [teardown_eq, unwatch]
  obtain ⟨more, hmore, -⟩ := htrail.tells hr.sound hfits
  exact ⟨.of_shut hc' hshut hstopped, .of_answers hmore (answers_closed r i)⟩

/-! ## Falling asleep -/

/-- **A close puts a channel to sleep.** -/
theorem dormant_closeChannel (hc : r.channel? i = some c) (hserver : c.mask.isServer = false)
    (hfits : r.transports.Fits) : (r.closeChannel i).Dormant due i := by
  obtain ⟨c', hc', hmask, hshut, -⟩ := exists_shutdownChannel hc hfits
  have hclosed : (r.closeChannel i).channel? i = some c' := by
    simp only [closeChannel, hc]
    split
    · exact (channel?_emit _ _ i).trans hc'
    · exact hc'
  exact .of_shut hclosed hshut fun _ => hmask ▸ hserver

/-- **The close of a client's connection does too.** -/
theorem dormant_closeTransport (hr : r.AtRest due) (hc : r.channel? i = some c)
    (hserver : c.mask.isServer = false) {id : TransportId} (hlive : r.Live i id)
    {due' : List (Expired Task)} : (r.closeTransport id).Dormant due' i := by
  obtain ⟨t, ht, hi⟩ := hlive
  have hs := hr.settled hc
  obtain ⟨c', hc', hheld⟩ := exists_closeTransport
    (fun t' ht' => Option.some.inj (ht.symm.trans ht') ▸ hi) hc
  simp only [Channel.holding, Prod.mk.injEq] at hheld
  obtain ⟨c'', hc'', -, hsettled, hsame⟩ := rests_closeTransport ht hi hc hs hr.desk
  obtain rfl := Option.some.inj (hc'.symm.trans hc'')
  obtain ⟨hopened, htimer, only, honly⟩ :
      c.state = .opened ∧ c.timer = none ∧ ∃ only, ∀ id', r.Live i id' ↔ id' = only := by
    cases hs with
    | closed hclosed hsocket hpending halone htimer => exact absurd ⟨t, ht, hi⟩ (halone id)
    | lookingUp hopening hsocket hpending hcache => exact absurd ⟨t, ht, hi⟩ (hopening.alone id)
    | connecting hopening hclient hsocket hpending => exact absurd ⟨t, ht, hi⟩ (hopening.alone id)
    | connected hstate hvalid hclient hsocket hpending htimer honly => exact ⟨hstate, htimer, honly⟩
    | serving hstate hvalid hnot hsocket hpending htimer =>
      simp [ChannelMask.isServer_of_isValid hvalid, hnot] at hserver
  have halone : (r.closeTransport id).Alone i := by
    intro id' hid'
    obtain ⟨hlive, hne⟩ := (live_of_remove (transports_closeTransport r id) i id').1 hid'
    exact hne (((honly id').1 hlive).trans ((honly id).1 ⟨t, ht, hi⟩).symm)
  have hstate : c'.state ≠ .opening := by
    intro hopening
    have hundertaken := hsame hserver
    rw [undertaken_of_channel hc, undertaken_of_channel hc', answers_closeTransport, hopened,
      hopening] at hundertaken
    simp at hundertaken
  have hserver' : c'.mask.isServer = false := hheld.1 ▸ hserver
  refine ⟨⟨c', hc', hsettled.closed_of_alone halone hstate hserver', fun _ => hserver'⟩, fun hslot => ?_⟩
  simp [slot_of_channel hc', hheld.2.2.2, htimer] at hslot

end Reactor

end NetReactor
