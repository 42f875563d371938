import NetReactor.Proofs.Reactor.Lifetime

/-!
# Opens that wait

An open waits only for its target. **Between two handlers an open that waits has a lookup in progress**
(`attends_act`, `attends_perform`): whoever sets it waiting, or takes its target away, goes on with it in
the same handler, and that ends with the lookup, with the socket, or with the open given up. Everything
else leaves both alone, or ends the wait.
-/

namespace NetReactor.Reactor

variable {σ : Type} {r r' : Reactor σ} {i j : Nat}

/-- If a channel's open waits, the lookup of its target is in progress. -/
def Attends (r : Reactor σ) (j : Nat) : Prop :=
  ∀ c, r.channel? j = some c → c.pendingOpen = true → c.cache.state = .inProgress

theorem attends_of_not_waits (h : r.waits j = false) : r.Attends j := by
  intro c hc hpending
  simp [waits, hc, hpending] at h

/-- **What is quiet neither sets an open waiting nor ends a lookup.** -/
theorem Quiet.attends (h : r.Quiet r') (hr : r.Attends j) : r'.Attends j := by
  intro c' hc' hpending'
  have hwaits : r.waits j = true := h.waits j (by simp [Reactor.waits, hc', hpending'])
  obtain ⟨c, hc, hpending⟩ := (Option.any_eq_true _ _).1 hwaits
  have htarget := congrArg (·[j]?) h.targets
  simp only [List.getElem?_map, show r.channels[j]? = some c from hc,
    show r'.channels[j]? = some c' from hc', Option.map_some, Option.some.injEq] at htarget
  have hcache : c'.cache = c.cache := congrArg Prod.snd htarget
  rw [hcache]
  exact hr c hc hpending

theorem Quiet.not_waits (h : r.Quiet r') (hr : r.waits j = false) : r'.waits j = false := by
  rw [Bool.eq_false_iff] at hr ⊢
  exact fun hwaits => hr (h.waits j hwaits)

/-- An update of one channel, which attends if that channel does after it. -/
theorem attends_updateChannel {f : Channel → Channel} (hr : j ≠ i → r.Attends j)
    (hf : ∀ c, r.channel? i = some c → (f c).pendingOpen = true → (f c).cache.state = .inProgress) :
    (r.updateChannel i f).Attends j := by
  intro c' hc' hpending
  rw [channel?, updateChannel, List.getElem?_modify] at hc'
  obtain ⟨c, hc, rfl⟩ := Option.map_eq_some_iff.1 hc'
  by_cases hij : i = j
  · subst hij
    rw [if_pos rfl] at hpending ⊢
    exact hf c hc hpending
  · rw [if_neg hij] at hpending ⊢
    exact hr (Ne.symm hij) c hc hpending

theorem attends_updateChannel_ne (f : Channel → Channel) (hr : j ≠ i → r.Attends j) (hj : j ≠ i) :
    (r.updateChannel i f).Attends j := by
  intro c hc
  refine hr hj c ?_
  simpa only [channel?, updateChannel, List.getElem?_modify, Ne.symm hj, if_false, Option.map_eq_map,
    Option.map_id'] using hc

theorem attends_none (hc : r.channel? i = none) (hr : j ≠ i → r.Attends j) : r.Attends j := by
  by_cases hj : j = i
  · subst hj
    intro c hc'
    exact absurd (hc.symm.trans hc') (Option.some_ne_none c).symm
  · exact hr hj

variable [Host σ]

/-! ## Going on with an open -/

theorem waits_openFailed (r : Reactor σ) (i : Nat) (status : Status) :
    (r.openFailed i status).waits i = false := by
  have hclosed : (r.givenUp i status).waits i = false := by
    refine (quiet_setState _ i .closed).not_waits ?_
    simp only [waits, channel?, updateChannel, List.getElem?_modify_eq]
    cases ((r.dropTimer i).releaseSocket i).channels[i]? <;> rfl
  have htold := (quiet_emit _ (.connectResponse i status none)).not_waits hclosed
  exact openFailed_cases (fun hc => by simp [waits, hc]) (fun _ _ _ => htold)
    fun _ _ _ => (quiet_scheduleReconnect _ i).not_waits htold

theorem attends_openFailed (status : Status) (hr : j ≠ i → r.Attends j) :
    (r.openFailed i status).Attends j := by
  by_cases hj : j = i
  · subst hj
    exact attends_of_not_waits (waits_openFailed r j status)
  · exact (quiet_openFailed r i status).attends (hr hj)

theorem attends_startLookup (hr : j ≠ i → r.Attends j) : (r.startLookup i).Attends j := by
  refine startLookup_cases (fun hc => attends_none hc hr) (fun c w _ _ => ?_) fun c w _ _ => ?_
  · have hbegun : (r.inquiring i).Attends j := attends_updateChannel hr fun _ _ _ => rfl
    exact hbegun
  · refine attends_openFailed _ fun hj => ?_
    refine attends_updateChannel_ne _ (fun hj => ?_) hj
    refine ((quiet_world _ w).trans (quiet_now _)).attends ?_
    exact attends_updateChannel_ne _ hr hj

/-- The wait for a target is over. -/
theorem attends_onward (hlocated : ∀ c, r.channel? i = some c → c.Located) (hr : j ≠ i → r.Attends j) :
    (r.onward i).Attends j := by
  refine (quiet_establish fun c' hc' => ?_).attends (attends_updateChannel hr ?_)
  · obtain ⟨c, hc, rfl⟩ := exists_of_updateChannel hc'
    exact hlocated c hc
  · intro c _ hpending
    cases hpending

/-- **An open that waits goes on**, whatever became of its target. -/
theorem attends_continueOpen (hr : j ≠ i → r.Attends j) : (r.continueOpen i).Attends j := by
  have hnow : j ≠ i → r.now.2.Attends j := fun hj => (quiet_now r).attends (hr hj)
  have hfresh : ∀ c, j ≠ i → (r.refreshed i c).Attends j := fun c => attends_updateChannel_ne _ hnow
  refine continueOpen_cases (fun hidle => ?_)
    (fun c hc _ hbinds => attends_onward (located_of_binds hc hbinds) hr)
    (fun c _ _ hready => attends_onward (located_refreshed hready) (hfresh c))
    (fun c _ _ _ => attends_startLookup (hfresh c))
    (fun c _ _ hlooking => attends_updateChannel hnow fun _ _ _ => hlooking)
    fun c _ _ _ => attends_openFailed _ (hfresh c)
  by_cases hj : j = i
  · exact hj ▸ attends_of_not_waits hidle
  · exact hr hj

/-! ## Handlers -/

theorem attends_openChannel (mask : ChannelMask) (hr : r.Attends j) : (r.openChannel i mask).Attends j := by
  refine openChannel_cases hr fun c _ _ _ => attends_continueOpen fun hj => ?_
  have hcleared : (r.cleared i c).Attends j := (chores_cleared trivial named_quiet c).quiet.attends hr
  have hopening : (((r.cleared i c).updateChannel i
      ({ · with mask := mask, pendingOpen := true, lastStatus := Status.ok })).setState i
        .opening).Attends j :=
    (quiet_setState _ i _).attends
      (attends_updateChannel_ne _ (fun _ => hcleared) hj)
  exact Quiet.attends (.ite (quiet_armTimer _ i _ _) (.refl _)) hopening

theorem attends_setRemote (host : Option String) (port : Option UInt16) (hr : r.Attends j) :
    (r.setRemote i host port).Attends j :=
  setRemote_cases hr fun _ _ _ _ _ => attends_continueOpen (attends_updateChannel_ne _ fun _ => hr)

theorem attends_resolved (a : Resolution) (hr : r.Attends j) : (r.resolved a).Attends j := by
  have htaken : ∀ c, (r.answeredBy a c).Attends j := by
    refine fun c => attends_updateChannel (fun _ => hr) ?_
    intro c _ hpending
    cases hpending
  exact resolved_cases (fun _ => hr) (fun _ _ _ => hr) (fun c _ _ _ => htaken c)
    (fun c _ _ _ hready => (quiet_establish (located_answeredBy hready)).attends (htaken c))
    fun c _ _ _ => (quiet_openFailed _ _ _).attends (htaken c)

/-- **Every command leaves each open that waits with its lookup in progress.** -/
theorem attends_perform (c : Command) (hr : r.Attends j) : (r.perform c).Attends j := by
  cases c with
  | openChannel i mask => exact attends_openChannel mask hr
  | closeChannel i => exact (chores_closeChannel trivial named_quiet).quiet.attends hr
  | closeTransport id => exact (chores_closeTransport fun _ _ => trivial).quiet.attends hr
  | reopen i id =>
    have hclosed : (r.closeTransport id).Attends j := (chores_closeTransport fun _ _ => trivial).quiet.attends hr
    simp only [perform]
    split
    · exact attends_openChannel _ hclosed
    · exact hclosed
  | resolved a => exact attends_resolved a hr
  | setRemote i host port => exact attends_setRemote host port hr
  | setLocalPort i port => exact (quiet_updateChannel r i (fun _ => by rfl) fun _ => by simp).attends hr

theorem attends_fire (e : Timer.Expired Task) (hr : r.Attends j) : (r.fire e).Attends j := by
  have htaken : ∀ i, (r.updateChannel i ({ · with timer := none })).Attends j := fun i =>
    (quiet_taken r i).attends hr
  refine fire_cases (fun _ _ => hr) (fun _ _ _ => hr) (fun i _ _ _ _ => htaken i) (fun i _ _ _ _ _ => ?_)
    fun i c _ _ _ _ => attends_openChannel c.mask (htaken i)
  exact (quiet_openFailed _ i _).attends (htaken i)

theorem attends_act (a : Act) (hr : r.Attends j) : (r.act a).Attends j := by
  cases ha : a.isTimer with
  | false =>
    exact act_cases (T := .quiet) ha (fun _ => trivial) False.elim ((quiet_waitTimeout r).attends hr)
      (fun d => (quiet_await r d).attends hr) (fun ready => (quiet_resetInterrupter r ready).attends hr)
      fun hchores => (Chores.quiet hchores).attends hr
  | true =>
    cases a with
    | pollTimers => exact (quiet_pollTimers r).attends hr
    | fire e => exact attends_fire e hr
    | _ => simp [Act.isTimer] at ha

end NetReactor.Reactor
