import NetReactor.Proofs.Reactor.Deeds

/-!
# Where a channel's timer comes from

A timer that waits in the queue for a channel was there before a row of deeds, or was armed along the row
(`Origin`): **a plan to try again is made only after a failure, for as long as the options then say**
(`Planned`). Every timer of a channel that waits is named by the channel's slot (`Tight`), so a channel
never has two.
-/

namespace NetReactor

open Timer (Expired Entry)

namespace Timer.Queue

variable {α : Type}

theorem get?_insert (q : Queue α) (h g : Handle) (e : Entry α) :
    (q.insert h e).get? g = if g = h then some e else q.get? g := by
  split
  · rename_i hg
    exact hg ▸ lookup_put_self h e q.entries
  · rename_i hg
    exact lookup_put_of_ne hg e q.entries

/-- A cancelled timer is still there, and only its deadline is another. -/
theorem exists_of_get?_cancel {q : Queue α} {now : Instant} {h g : Handle} {e : Entry α}
    (he : (q.cancel now h).2.get? g = some e) : ∃ e₀, q.get? g = some e₀ ∧
      e₀.payload = e.payload ∧ e₀.kind = e.kind ∧ (e₀.deadline = e.deadline ∨ g = h) := by
  unfold cancel at he
  cases hh : q.get? h with
  | none => exact ⟨e, by simpa [hh] using he, rfl, rfl, .inl rfl⟩
  | some e₁ =>
    by_cases hcancelled : e₁.cancelled = true
    · exact ⟨e, by simpa [hh, hcancelled] using he, rfl, rfl, .inl rfl⟩
    · simp only [hh, hcancelled, Bool.false_eq_true, if_false] at he
      by_cases hg : g = h
      · subst hg
        obtain rfl := Option.some.inj ((lookup_put_self ..).symm.trans he)
        exact ⟨e₁, hh, rfl, rfl, .inr rfl⟩
      · exact ⟨e, (lookup_put_of_ne hg ..).symm.trans he, rfl, rfl, .inl rfl⟩

end Timer.Queue

namespace Service

/-- The timer under `g` is as it was, but for its deadline if the application cancelled it. -/
structure Remains (s : Service) (g : Timer.Handle) (e e' : Entry Task) : Prop where
  payload : e.payload = e'.payload
  kind : e.kind = e'.kind
  deadline : e.deadline = e'.deadline ∨ .cancelled g ∈ s.timerCalls

variable {s s' : Service} {g : Timer.Handle} {e e' e'' : Entry Task}

theorem Remains.refl (s : Service) (g : Timer.Handle) (e : Entry Task) : s.Remains g e e :=
  ⟨rfl, rfl, .inl rfl⟩

theorem Remains.trans (h : s.Remains g e e') (h' : s'.Remains g e' e'')
    (hcalls : s.timerCalls ⊆ s'.timerCalls) : s'.Remains g e e'' := by
  refine ⟨h.payload.trans h'.payload, h.kind.trans h'.kind, ?_⟩
  rcases h.deadline with hsame | hcancelled
  · exact h'.deadline.imp_left hsame.trans
  · exact .inr (hcalls hcancelled)

theorem timerCalls_of_plays (h : s.Plays s') : s.timerCalls ⊆ s'.timerCalls := by
  induction h with
  | refl => exact List.Subset.refl _
  | tail _ hplay ih =>
    refine List.Subset.trans ih ?_
    cases hplay with
    | same hbooks =>
      simp only [books, Prod.mk.injEq] at hbooks
      rw [hbooks.2.2.2]
      exact List.Subset.refl _
    | wait => exact List.Subset.refl _
    | _ => exact List.subset_cons_self _ _

theorem nextTimer_of_plays (h : s.Plays s') : s.nextTimer ≤ s'.nextTimer := by
  induction h with
  | refl => exact Nat.le_refl _
  | tail _ hplay ih =>
    refine Nat.le_trans ih ?_
    cases hplay with
    | same hbooks =>
      simp only [books, Prod.mk.injEq] at hbooks
      exact Nat.le_of_eq hbooks.2.2.1.symm
    | schedule now delay again timer => exact Nat.le_succ _
    | _ => exact Nat.le_refl _

/-- **The application puts nothing in for a channel**, and takes out or cancels what it likes. -/
theorem exists_of_plays (h : s.Plays s') {i : Nat} (he' : s'.timers.get? g = some e')
    (hi : e'.payload.channel? = some i) : ∃ e, s.timers.get? g = some e ∧ s'.Remains g e e' := by
  induction h generalizing e' with
  | refl => exact ⟨e', he', .refl _ g e'⟩
  | @tail b c hplays hplay ih =>
    obtain ⟨e, he, hremains⟩ : ∃ e, b.timers.get? g = some e ∧ c.Remains g e e' := by
      cases hplay with
      | same hbooks =>
        simp only [books, Prod.mk.injEq] at hbooks
        exact ⟨e', hbooks.2.1 ▸ he', .refl _ g e'⟩
      | schedule now delay again timer =>
        rw [Timer.Queue.get?_insert] at he'
        split at he'
        · obtain rfl := Option.some.inj he'
          simp [Entry.after, Task.channel?] at hi
        · exact ⟨e', he', .refl _ g e'⟩
      | cancel now h =>
        obtain ⟨e, he, hpayload, hkind, hdeadline⟩ := Timer.Queue.exists_of_get?_cancel he'
        refine ⟨e, he, hpayload, hkind, hdeadline.imp_right fun hg => ?_⟩
        rw [hg]
        exact List.mem_cons_self
      | remove h => exact ⟨e', (Desk.ne_and_lookup_of_remove he').2, .refl _ g e'⟩
      | wait => exact ⟨e', he', .refl _ g e'⟩
    obtain ⟨e₀, he₀, hremains₀⟩ := ih he (hremains.payload ▸ hi)
    exact ⟨e₀, he₀, hremains₀.trans hremains (timerCalls_of_plays (.single hplay))⟩

end Service

namespace Reactor

variable {σ : Type} [Host σ] {r₀ r r' : Reactor σ} {i : Nat} {g : Timer.Handle} {e e' : Entry Task}

/-! ## What a row of deeds keeps -/

namespace Deeds

theorem options (h : Deeds r₀ r) : r.options = r₀.options := by
  induction h with
  | refl => rfl
  | aside h hworld hslots hrest ih => exact (congrArg (·.1) hrest).trans ih
  | _ => assumption

theorem calls (h : Deeds r₀ r) : Host.Calls r₀.world r.world := by
  induction h with
  | refl => exact .refl _
  | aside h hworld hslots hrest ih => exact ih.trans hworld
  | arm h hc hempty hcause ih => exact ih.trans (Host.Call.now _).calls
  | _ => assumption

theorem timerCalls (h : Deeds r₀ r) : r₀.service.timerCalls ⊆ r.service.timerCalls := by
  induction h with
  | refl => exact List.Subset.refl _
  | aside h hworld hslots hrest ih =>
    simp only [Service.agenda, Prod.mk.injEq] at hrest
    rwa [hrest.2.2.2.2.2.2.2.2.1]
  | ask h now q ih =>
    exact List.Subset.trans ih (Service.timerCalls_of_plays (Service.plays_perform _ now q))
  | _ => assumption

theorem nextTimer_le (h : Deeds r₀ r) : r₀.service.nextTimer ≤ r.service.nextTimer := by
  induction h with
  | refl => exact Nat.le_refl _
  | aside h hworld hslots hrest ih =>
    simp only [Service.agenda, Prod.mk.injEq] at hrest
    rwa [hrest.2.2.2.2.2.2.2.1]
  | ask h now q ih =>
    exact Nat.le_trans ih (Service.nextTimer_of_plays (Service.plays_perform _ now q))
  | arm h hc hempty hcause ih => exact Nat.le_succ_of_le ih
  | _ => assumption

end Deeds

/-! ## Plans to try again -/

/-- A plan to try channel `i` again was made between two states. -/
structure Planned (r₀ r : Reactor σ) (i : Nat) (g : Timer.Handle) (deadline : Instant) : Prop where
  issued : r₀.service.nextTimer ≤ g
  /-- An open of it failed, or a connection of it was lost that was not closed from here. -/
  failed : ∃ m ∈ r.news r₀, m.event.Fails σ i
  /-- The clock is read, and the deadline is as much later as the options say. -/
  later : ∃ (delay : Duration) (w : σ), r₀.options.reconnectTimeout = some delay ∧
    Host.Calls r₀.world w ∧ Host.Calls (Host.now w).2 r.world ∧ deadline = (Host.now w).1.add delay

/-- Where a timer comes from that waits in the queue for a channel. -/
inductive Origin (r₀ r : Reactor σ) (g : Timer.Handle) (e' : Entry Task) : Prop
  | waited {e : Entry Task} (he : r₀.service.timers.get? g = some e) (hremains : r.service.Remains g e e')
  | armed {e : Entry Task} (hissued : r₀.service.nextTimer ≤ g) (honce : e.kind = .oneShot)
      (hplanned : ∀ i, e.payload = .reconnect i → Planned r₀ r i g e.deadline)
      (hremains : r.service.Remains g e e')

theorem Planned.onward {deadline : Instant} (h : Planned r₀ r i g deadline)
    (hcalls : Host.Calls r.world r'.world) (hnews : r.news r₀ ⊆ r'.news r₀) :
    Planned r₀ r' i g deadline := by
  obtain ⟨m, hm, hfails⟩ := h.failed
  obtain ⟨delay, w, hdelay, hbefore, hafter, hdeadline⟩ := h.later
  exact ⟨h.issued, ⟨m, hnews hm, hfails⟩, delay, w, hdelay, hbefore, hafter.trans hcalls, hdeadline⟩

theorem Origin.onward (h : Origin r₀ r g e) (hremains' : r'.service.Remains g e e')
    (htimerCalls : r.service.timerCalls ⊆ r'.service.timerCalls)
    (hcalls : Host.Calls r.world r'.world) (hnews : r.news r₀ ⊆ r'.news r₀) : Origin r₀ r' g e' := by
  cases h with
  | waited he hremains => exact .waited he (hremains.trans hremains' htimerCalls)
  | armed hissued honce hplanned hremains =>
    exact .armed hissued honce (fun i hi => (hplanned i hi).onward hcalls hnews)
      (hremains.trans hremains' htimerCalls)

omit [Host σ] in
theorem news_of_emitted (h : r'.service.emitted = r.service.emitted) : r'.news r₀ = r.news r₀ := by
  rw [news, news, h]

omit [Host σ] in
theorem news_of_plays {s : Service} (h : r.service.Plays s) :
    news { r with service := s } r₀ = r.news r₀ :=
  news_of_emitted (emitted_of_plays h)

omit [Host σ] in
theorem news_record (r : Reactor σ) (e : Event) : r.news r₀ ⊆ (r.record e).news r₀ := by
  rw [news, news, emitted_record, List.drop_append]
  exact List.subset_append_left _ _

/-- **A timer that waits for a channel waited before, or was armed along the row**, and a plan to try
again after a failure. -/
theorem Deeds.origin (h : Deeds r₀ r) (he : r.service.timers.get? g = some e)
    (hi : e.payload.channel? = some i) : Origin r₀ r g e := by
  induction h generalizing e with
  | refl => exact .waited he (.refl _ g e)
  | aside h hworld hslots hrest ih =>
    simp only [Service.agenda, Prod.mk.injEq] at hrest
    obtain ⟨-, -, -, -, -, -, htimers, -, hcalls, hemitted⟩ := hrest
    refine (ih (htimers ▸ he) hi).onward (.refl _ g e) ?_ hworld ?_
    · exact hcalls ▸ List.Subset.refl _
    · exact news_of_emitted hemitted ▸ List.Subset.refl _
  | @ask r h now q ih =>
    have hplays := Service.plays_perform r.service now q
    obtain ⟨e₁, he₁, hremains⟩ := Service.exists_of_plays hplays he hi
    refine (ih he₁ (hremains.payload ▸ hi)).onward hremains (Service.timerCalls_of_plays hplays)
      (.refl _) ?_
    exact news_of_plays hplays ▸ List.Subset.refl _
  | record h event ih =>
    exact (ih he hi).onward (.refl _ g e) (List.Subset.refl _) (.refl _) (news_record _ event)
  | @drop r j g' h hg ih =>
    have hlookup := (Desk.ne_and_lookup_of_remove he).2
    exact (ih hlookup hi).onward (.refl _ g e) (List.Subset.refl _) (.refl _) (List.Subset.refl _)
  | @arm r j c task delay h hc hempty hcause ih =>
    have hinsert := (Timer.Queue.get?_insert r.service.timers r.service.nextTimer g _).symm.trans he
    have hnow : Host.Calls r.world (r.armed j delay task).world := (Host.Call.now r.world).calls
    split at hinsert
    · rename_i hg
      obtain rfl := Option.some.inj hinsert
      refine .armed (hg ▸ h.nextTimer_le) rfl (fun k hk => ?_) (.refl _ g _)
      cases hcause with
      | opens => simp [Entry.after] at hk
      | fails hm hfails hdelay =>
        obtain rfl : j = k := by simpa [Entry.after] using hk
        exact ⟨hg ▸ h.nextTimer_le, ⟨_, hm, hfails⟩, delay, r.world, h.options ▸ hdelay, h.calls,
          .refl _, rfl⟩
    · exact (ih hinsert hi).onward (.refl _ g e) (List.Subset.refl _) hnow (List.Subset.refl _)

/-! ## Slots and timers -/

omit [Host σ] in
theorem slot_eq (r : Reactor σ) (i : Nat) : r.slot i = ((r.channels.map (·.timer))[i]?).join := by
  rw [List.getElem?_map, slot, channel?]
  cases r.channels[i]? <;> rfl

omit [Host σ] in
theorem slot_updateChannel_of_ne {j : Nat} (hne : j ≠ i) (r : Reactor σ) (f : Channel → Channel) :
    (r.updateChannel i f).slot j = r.slot j := by
  rw [slot, channel?_updateChannel_of_ne hne, slot]

/-- The slots name the channels' timers in the queue, and each of those fires once. -/
def Named (r : Reactor σ) : Prop := ∀ {g e i}, r.service.timers.get? g = some e →
  e.payload.channel? = some i → r.slot i = some g ∧ e.kind = .oneShot

/-- That, and what is due is out of the queue. -/
structure Tight (r : Reactor σ) (due : List (Expired Task)) : Prop where
  named : r.Named
  apart : ∀ {x e}, x ∈ due → x.payload.channel?.isSome → r.service.timers.get? x.handle = some e →
    e.payload.channel? = none

/-- **Deed by deed the slots name the channels' timers.** -/
theorem Deeds.named (h : Deeds r₀ r) (hr₀ : r₀.Named) : r.Named := by
  intro g e i he hi
  induction h generalizing e i with
  | refl => exact hr₀ he hi
  | @aside r r' h hworld hslots hrest ih =>
    simp only [Service.agenda, Prod.mk.injEq] at hrest
    obtain ⟨-, -, -, -, -, -, htimers, -⟩ := hrest
    rw [slot_eq, hslots, ← slot_eq]
    exact ih (htimers ▸ he) hi
  | @ask r h now q ih =>
    obtain ⟨e₁, he₁, hremains⟩ := Service.exists_of_plays (Service.plays_perform r.service now q) he hi
    exact hremains.kind ▸ ih he₁ (hremains.payload ▸ hi)
  | record h event ih => exact ih he hi
  | @drop r j g' h hg ih =>
    obtain ⟨hne, hlookup⟩ := Desk.ne_and_lookup_of_remove he
    obtain ⟨hslot, honce⟩ := ih hlookup hi
    have hij : i ≠ j := by
      rintro rfl
      exact hne (Option.some.inj (hslot.symm.trans hg))
    exact ⟨(slot_updateChannel_of_ne hij _ _).trans hslot, honce⟩
  | @arm r j c task delay h hc hempty hcause ih =>
    have hinsert := (Timer.Queue.get?_insert r.service.timers r.service.nextTimer g _).symm.trans he
    split at hinsert
    · rename_i hg
      obtain rfl := Option.some.inj hinsert
      obtain rfl : j = i := by cases hcause <;> exact Option.some.inj hi
      refine ⟨?_, rfl⟩
      have hchannel : (r.armed j delay task).channel? j =
          some { c with timer := some r.service.nextTimer } :=
        (channel?_updateChannel_self _ j _).trans (congrArg (Option.map _) hc)
      rw [slot, hchannel, hg]
      rfl
    · obtain ⟨hslot, honce⟩ := ih hinsert hi
      have hij : i ≠ j := by
        rintro rfl
        simp [slot, hc, hempty] at hslot
      exact ⟨(slot_updateChannel_of_ne hij _ _).trans hslot, honce⟩

variable {due : List (Expired Task)}

theorem Deeds.tight (h : Deeds r₀ r) (hissued : ∀ x ∈ due, x.handle < r₀.service.nextTimer)
    (hr₀ : r₀.Tight due) : r.Tight due := by
  refine ⟨h.named hr₀.named, fun {x e} hx hchannel he => ?_⟩
  cases hi : e.payload.channel? with
  | none => rfl
  | some i =>
    cases h.origin he hi with
    | waited he₀ hremains => exact hi.symm.trans (hremains.payload ▸ hr₀.apart hx hchannel he₀)
    | armed hle honce hplanned hremains => exact absurd (hissued x hx) (Nat.not_lt.2 hle)

omit [Host σ] in
/-- A due timer's channel may lose its timer from the slot. -/
theorem Tight.take (hr : r.Tight due) {x : Expired Task} (hx : x ∈ due)
    (hi : x.payload.channel? = some i) (hslot : r.slot i = some x.handle) :
    (r.updateChannel i ({ · with timer := none })).Tight due := by
  refine ⟨fun {g e j} he hj => ?_, hr.apart⟩
  obtain ⟨hnamed, honce⟩ := hr.named he hj
  have hji : j ≠ i := by
    rintro rfl
    obtain rfl : g = x.handle := Option.some.inj (hnamed.symm.trans hslot)
    exact absurd hj (by simp [hr.apart hx (by simp [hi]) he])
  exact ⟨(slot_updateChannel_of_ne hji r _).trans hnamed, honce⟩

omit [Host σ] in
theorem Tight.mono {due' : List (Expired Task)} (hr : r.Tight due) (hsub : due' ⊆ due) : r.Tight due' :=
  ⟨hr.named, fun hx => hr.apart (hsub hx)⟩

/-! ## Whatever is done -/

/-- What a plan's making is told from. -/
def standpoint (r : Reactor σ) :=
  (r.world, r.options, r.service.timers, r.service.nextTimer, r.service.timerCalls, r.service.emitted)

/-- The slots stay right, the timers are accounted for, and no call of the application is forgotten. -/
structure TimersTraced (due : List (Expired Task)) (r r' : Reactor σ) : Prop where
  tight : (∀ x ∈ due, x.handle < r.service.nextTimer) → r.Tight due → r'.Tight due
  origin : ∀ {g e i}, r'.service.timers.get? g = some e → e.payload.channel? = some i →
    Origin r r' g e
  timerCalls : r.service.timerCalls ⊆ r'.service.timerCalls

theorem Origin.of_eq (h : Origin r₀ r' g e) (hsame : r₀.standpoint = r.standpoint) :
    Origin r r' g e := by
  simp only [standpoint, Prod.mk.injEq] at hsame
  obtain ⟨hworld, hoptions, htimers, hnext, -, hemitted⟩ := hsame
  cases h with
  | waited he hremains => exact .waited (htimers ▸ he) hremains
  | armed hissued honce hplanned hremains =>
    refine .armed (hnext ▸ hissued) honce (fun i hi => ?_) hremains
    obtain ⟨-, hfailed, hlater⟩ := hplanned i hi
    exact ⟨hnext ▸ hissued, by rwa [news, ← hemitted], by rwa [← hworld, ← hoptions]⟩

/-- What leads to deeds from another state than this may tell them from here. -/
theorem Deeds.timersTraced (h : Deeds r₀ r') (hsame : r₀.standpoint = r.standpoint)
    (htight : r.Tight due → r₀.Tight due) : TimersTraced due r r' := by
  have hfields := hsame
  simp only [standpoint, Prod.mk.injEq] at hfields
  obtain ⟨-, -, -, hnext, hcalls, -⟩ := hfields
  exact ⟨fun hissued hr => h.tight (hnext ▸ hissued) (htight hr),
    fun he hi => (h.origin he hi).of_eq hsame, hcalls ▸ h.timerCalls⟩

theorem Idle.timersTraced (h : r.Idle r') : TimersTraced due r r' := by
  have hslot : ∀ i, r'.slot i = r.slot i := fun i => by rw [slot_eq, slot_eq, h.channels]
  refine ⟨fun _ hr => ⟨fun {g e i} he hi => ?_, fun {x e} hx hchannel he => ?_⟩, fun he hi => ?_,
    Service.timerCalls_of_plays h.plays⟩
  · obtain ⟨e₀, he₀, hremains⟩ := Service.exists_of_plays h.plays he hi
    rw [hslot, ← hremains.kind]
    exact hr.named he₀ (hremains.payload ▸ hi)
  · cases hi : e.payload.channel? with
    | none => rfl
    | some i =>
      obtain ⟨e₀, he₀, hremains⟩ := Service.exists_of_plays h.plays he hi
      exact hi.symm.trans (hremains.payload ▸ hr.apart hx hchannel he₀)
  · obtain ⟨e₀, he₀, hremains⟩ := Service.exists_of_plays h.plays he hi
    exact .waited he₀ hremains

/-- **A timer that fires leaves the slots right.** -/
theorem timersTraced_fire {x : Expired Task} (hx : x ∈ due) : TimersTraced due r (r.fire x) := by
  rcases deeds_fire r x with h | ⟨i, hi, hslot, h⟩
  · exact h.timersTraced rfl id
  · exact h.timersTraced rfl fun hr => hr.take hx hi hslot

/-! ## A poll -/

/-- A channel's timer that a poll leaves in the queue is not due. -/
theorem Tight.of_polled (hr : r.Tight due) (hdesk : (r.desk []).Sound)
    (he : r.pollTimers.2.service.timers.get? g = some e) (hi : e.payload.channel? = some i) :
    r.service.timers.get? g = some e ∧ e.isExpired (Host.now r.world).1 = false := by
  have hlookup := hdesk.keyed.lookup_pollExpired (Host.now r.world).1 g
  obtain ⟨e₀, he₀, he⟩ := Option.bind_eq_some_iff.1 (hlookup.symm.trans he)
  split at he
  · obtain ⟨interval, hagain, rfl⟩ := Option.map_eq_some_iff.1 he
    have honce := (hr.named he₀ hi).2
    simp [Entry.again?, honce, Timer.Kind.interval?] at hagain
  · rename_i hexpired
    obtain rfl := Option.some.inj he
    exact ⟨he₀, by simpa using hexpired⟩

/-- **A poll takes a channel's timer off the queue.** -/
theorem Tight.poll (hr : r.Tight []) (hdesk : (r.desk []).Sound) :
    r.pollTimers.2.Tight r.pollTimers.1 := by
  refine ⟨fun he hi => hr.named (hr.of_polled hdesk he hi).1 hi, fun {x e} hx _ he => ?_⟩
  cases hi : e.payload.channel? with
  | none => rfl
  | some i =>
    obtain ⟨he₀, hlater⟩ := hr.of_polled hdesk he hi
    obtain ⟨e₁, he₁, hexpired, -⟩ := hdesk.keyed.mem_pollExpired.1 hx
    obtain rfl := Option.some.inj (he₀.symm.trans he₁)
    exact absurd (hexpired.symm.trans hlater) (by simp)

end Reactor

end NetReactor
