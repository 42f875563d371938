import NetReactor.Proofs.Reactor.Dormant

/-!
# Trying again

What brings a closed client to open again, over every run (`Governed`): **a command that names it, or its own
timer, which was armed after a failure and is not polled before its deadline** unless the application cancelled
it: a cancelled timer is due at once, and the loop does not ask whether one of its own was cancelled. So a
client that was closed from this side stays closed, and no open of it is answered any more, until a command
opens it (`governed_of_reachable`); late readiness, answers to lookups, new targets and timers of the same
batch come to nothing.
-/

namespace NetReactor

open Timer (Expired Entry Owned)

/-- Whether a command opens channel `i`. -/
def Command.opens (i : Nat) : Command → Bool
  | .openChannel j _ | .reopen j _ => j = i
  | _ => false

/-- A command that closes channel `i`, or a connection of it that is held. -/
def Command.Closes {σ : Type} (r : Reactor σ) (i : Nat) : Command → Prop
  | .closeChannel j => j = i
  | .closeTransport id => r.Live i id
  | _ => False

namespace Reactor

variable {σ : Type} [Host σ] {r : Reactor σ} {i : Nat} {mask : ChannelMask}

omit [Host σ] in
theorem eq_of_mem_taken {j : Nat} {mask' : ChannelMask} (h : (i, mask) ∈ r.taken j mask') : i = j := by
  unfold taken at h
  split at h
  · exact congrArg Prod.fst (List.mem_singleton.1 h)
  · simp at h

theorem opens_of_takenBy {c : Command} (h : (i, mask) ∈ r.takenBy c) : c.opens i = true := by
  cases c with
  | openChannel j mask' => simp [Command.opens, eq_of_mem_taken h]
  | reopen j id =>
    simp only [takenBy] at h
    split at h
    · simp [Command.opens, eq_of_mem_taken h]
    · simp at h
  | _ => simp [takenBy] at h

omit [Host σ] in
theorem reconnect_of_takenUpon {e : Expired Task} (h : (i, mask) ∈ r.takenUpon e) :
    e.payload = .reconnect i ∧ r.slot i = some e.handle := by
  unfold takenUpon at h
  split at h
  · rename_i j hpayload
    split at h
    · rename_i c hc
      split at h
      · rename_i hnamed
        obtain rfl := eq_of_mem_taken h
        simp only [Bool.and_eq_true, decide_eq_true_eq] at hnamed
        exact ⟨hpayload, (slot_of_channel hc).trans hnamed.1⟩
      · simp at h
    · simp at h
  · simp at h

end Reactor

namespace Course

variable {σ : Type} [Host σ] {x y z : Course σ} {i : Nat}

/-- The loop's next command is carried out, and is of a kind. -/
def Performs (p : Command → Prop) (x : Course σ) (r : Reactor σ) : Prop :=
  ∃ c rest, x.service.commands = c :: rest ∧ p c ∧ r = (x.reactor.withCommands rest).perform c

/-- The loop can carry its next command out. -/
theorem exists_performs {p : Command → Prop} {c : Command} {rest : List Command}
    (hrunning : x.service.running = true) (hc : x.service.commands = c :: rest) (hp : p c) :
    ∃ y, x.Step y ∧ x.Performs p y.reactor :=
  ⟨_, .command hrunning hc, c, rest, hc, hp, rfl⟩

/-- Channel `i`'s own timer fires and opens it again. -/
def Retries (i : Nat) (x : Course σ) (r : Reactor σ) : Prop :=
  ∃ e rest, x.due = e :: rest ∧ e.payload = .reconnect i ∧ x.reactor.slot i = some e.handle ∧
    r = x.reactor.fire e

/-- A step, told by what it does to opens and timers. -/
inductive OpenTimerStep (x : Course σ) : Course σ → Prop
  | moves {r : Reactor σ} {due : List (Expired Task)} {new : List (Nat × ChannelMask)}
      (hhandled : Reactor.Handled x.due new x.reactor r) (horigins : Reactor.TimersTraced x.due x.reactor r)
      (hrest : x.service.running = true ∨ x.reactor.Idle r) (hsub : due ⊆ x.due)
      (hnew : ∀ {i mask}, (i, mask) ∈ new → x.Performs (·.opens i) r ∨ x.Retries i r) :
      OpenTimerStep x { x with reactor := r, due := due, opens := new ++ x.opens }
  | poll (hrunning : x.service.running = true) (hdue : x.due = []) :
      OpenTimerStep x { x with reactor := x.reactor.pollTimers.2, due := x.reactor.pollTimers.1 }
  | stop (hdue : x.due = []) : OpenTimerStep x (x.withReactor x.reactor.teardown)
  | start (hrunning : x.service.running = false) (hdue : x.due = []) (callback : Nat)
      (endpoints : List Endpoint) :
      OpenTimerStep x {
        reactor := .new (x.service.start callback endpoints.length) x.reactor.world endpoints
        due := []
        opens := []
        told := x.service.emitted.size
        made := x.service.connections.size }

theorem openTimerStep_of_idle {r : Reactor σ} (h : x.reactor.Idle r) : x.OpenTimerStep (x.withReactor r) :=
  .moves h.opensNone h.timersTraced (.inr h) (List.Subset.refl _) (by simp)

theorem openTimerStep_of_deeds {r : Reactor σ} (hrunning : x.service.running = true)
    (hopens : Reactor.OpensNone x.due x.reactor r) (h : Reactor.Deeds x.reactor r) :
    x.OpenTimerStep (x.withReactor r) :=
  .moves hopens (h.timersTraced rfl id) (.inl hrunning) (List.Subset.refl _) (by simp)

theorem openTimerStep_of_act (hrunning : x.service.running = true) {a : Reactor.Act} (ha : a.isTimer = false) :
    x.OpenTimerStep (x.withReactor (x.reactor.act a)) := by
  have hopens : Reactor.OpensNone x.due x.reactor (x.reactor.act a) := Reactor.opensNone_act _ ha
  revert hopens
  exact Reactor.act_cases (T := .any) ha (fun _ => trivial) False.elim
    (fun _ => openTimerStep_of_idle (Reactor.idle_waitTimeout _))
    (fun d _ => openTimerStep_of_idle (Reactor.idle_await _ d))
    (fun ready _ => openTimerStep_of_idle (Reactor.idle_resetInterrupter _ ready))
    fun hchores hopens => openTimerStep_of_deeds hrunning hopens hchores.deeds

/-- **Every step is one of these**, and an open that is taken up is that of a command or of a timer. -/
theorem Step.openTimerStep (h : x.Step y) : x.OpenTimerStep y := by
  cases h with
  | request now q => exact openTimerStep_of_idle ⟨rfl, rfl, Service.plays_perform _ now q⟩
  | dispatch max => exact openTimerStep_of_idle ⟨rfl, rfl, Service.plays_dispatch max _ _⟩
  | world w => exact openTimerStep_of_idle ⟨rfl, rfl, .refl _⟩
  | answer a => exact openTimerStep_of_idle ⟨rfl, rfl, .of_books rfl⟩
  | refresh hrunning => exact openTimerStep_of_idle (Reactor.idle_refreshOptions _)
  | act hrunning ha => exact openTimerStep_of_act hrunning ha
  | @command c rest hrunning hc =>
    have hidle := Reactor.idle_withCommands x.reactor rest
    have hdeeds := Reactor.deeds_perform (x.reactor.withCommands rest) c
    refine .moves (hidle.handled (Reactor.handled_perform _ c)) (hdeeds.timersTraced rfl fun ht => ?_)
      (.inl hrunning) (List.Subset.refl _) fun hmem => ?_
    · exact ⟨ht.named, ht.apart⟩
    · exact .inl ⟨c, rest, hc, Reactor.opens_of_takenBy hmem, rfl⟩
  | poll hrunning hdue => exact .poll hrunning hdue
  | @fire e rest hrunning hdue =>
    have he : e ∈ x.due := hdue ▸ List.mem_cons_self
    refine .moves (Reactor.handled_fire x.reactor he) (Reactor.timersTraced_fire he) (.inl hrunning) ?_
      fun hmem => ?_
    · exact hdue ▸ List.subset_cons_self e rest
    · obtain ⟨hpayload, hslot⟩ := Reactor.reconnect_of_takenUpon hmem
      exact .inr ⟨e, rest, hdue, hpayload, hslot, rfl⟩
  | stop hrunning hstopping hdue => exact .stop hdue
  | start hrunning hdue callback endpoints => exact .start hrunning hdue callback endpoints

/-! ## Whose timers wait -/

/-- The slots name the channels' timers, and without a loop there are none. -/
structure Tight (x : Course σ) : Prop where
  timers : x.reactor.Tight x.due
  idle : x.service.running = false → ∀ {g e}, x.service.timers.get? g = some e →
    e.payload.channel? = none

theorem OpenTimerStep.tight (h : x.OpenTimerStep y) (hkept : x.reactor.Kept x.due) (hx : x.Tight) : y.Tight := by
  cases h with
  | moves hhandled horigins hrest hsub hnew =>
    refine ⟨(horigins.tight hkept.desk.due hx.timers).mono hsub, fun hstopped {g e} he => ?_⟩
    have hstopped₀ : x.service.running = false := hhandled.trail.running.symm.trans hstopped
    have hidle := hrest.resolve_left (by simp [hstopped₀])
    cases hi : e.payload.channel? with
    | none => rfl
    | some i =>
      obtain ⟨e₀, he₀, hremains⟩ := Service.exists_of_plays hidle.plays he hi
      exact hi.symm.trans (hremains.payload ▸ hx.idle hstopped₀ he₀)
  | poll hrunning hdue =>
    have htight := hdue ▸ hx.timers
    refine ⟨htight.poll (hdue ▸ hkept.desk), fun hstopped => ?_⟩
    exact absurd (hrunning.symm.trans hstopped) (by simp)
  | stop hdue =>
    have hnone : ∀ {g e}, x.reactor.teardown.service.timers.get? g ≠ some e := nofun
    exact ⟨⟨fun he => absurd he hnone, fun _ _ he => absurd he hnone⟩, fun _ {_ _} he => absurd he hnone⟩
  | start hrunning hdue callback endpoints =>
    refine ⟨⟨fun {g e i} he hi => ?_, by simp⟩, fun hstopped => ?_⟩
    · have hnone := hx.idle hrunning (Service.timers_start hrunning _ _ ▸ he)
      simp [hnone] at hi
    · exact absurd ((Service.running_start hrunning _ _).symm.trans hstopped) (by simp)

theorem Reachable.tight (h : x.Reachable) : x.Tight := by
  obtain ⟨o, w, hsteps⟩ := h
  induction hsteps with
  | refl =>
    have hnone : ∀ {g e}, (new o w).service.timers.get? g ≠ some e := nofun
    exact ⟨⟨fun he => absurd he hnone, by simp [new]⟩, fun _ {_ _} he => absurd he hnone⟩
  | tail hsteps hstep ih => exact hstep.openTimerStep.tight (Reachable.kept ⟨o, w, hsteps⟩) ih

/-! ## When plans were made -/

/-- Some time ago a plan to try channel `i` again was made. -/
def PlannedBefore (x : Course σ) (i : Nat) (g : Timer.Handle) (deadline : Instant) : Prop :=
  ∃ p q : Course σ, p.Reachable ∧ p.Step q ∧ q.Steps x ∧
    Reactor.Planned p.reactor q.reactor i g deadline

/-- Some time ago a poll, which read the clock, took a plan to try channel `i` again off the queue. -/
def PolledBefore (x : Course σ) (i : Nat) (e : Expired Task) (deadline now : Instant) : Prop :=
  ∃ p q : Course σ, p.PlannedBefore i e.handle deadline ∧ p.Step q ∧ q.Steps x ∧
    q.reactor = p.reactor.pollTimers.2 ∧ e ∈ p.reactor.pollTimers.1 ∧ now = (Host.now p.reactor.world).1

theorem PlannedBefore.step {g : Timer.Handle} {deadline : Instant}
    (h : x.PlannedBefore i g deadline) (hstep : x.Step y) : y.PlannedBefore i g deadline := by
  obtain ⟨p, q, hreach, hmade, hsteps, hplanned⟩ := h
  exact ⟨p, q, hreach, hmade, hsteps.tail hstep, hplanned⟩

theorem PolledBefore.step {e : Expired Task} {deadline now : Instant}
    (h : x.PolledBefore i e deadline now) (hstep : x.Step y) : y.PolledBefore i e deadline now := by
  obtain ⟨p, q, hplanned, hpoll, hsteps, hpolled⟩ := h
  exact ⟨p, q, hplanned, hpoll, hsteps.tail hstep, hpolled⟩

/-- A poll takes a plan off the queue. -/
theorem PlannedBefore.polled {e : Expired Task} {deadline : Instant}
    (h : x.PlannedBefore i e.handle deadline) (hrunning : x.service.running = true) (hdue : x.due = [])
    (he : e ∈ x.reactor.pollTimers.1) :
    PolledBefore { x with reactor := x.reactor.pollTimers.2, due := x.reactor.pollTimers.1 } i e deadline
      (Host.now x.reactor.world).1 :=
  ⟨x, _, h, .poll hrunning hdue, .refl, rfl, he, rfl⟩

/-- Every plan to try again was made before, and is due when its deadline has come. Only a plan that the
application cancelled is due earlier. -/
structure Traced (x : Course σ) : Prop where
  waiting : ∀ {g e i}, x.service.timers.get? g = some e → e.payload = .reconnect i →
    ∃ deadline, x.PlannedBefore i g deadline ∧
      (deadline = e.deadline ∨ .cancelled g ∈ x.service.timerCalls)
  due : ∀ {e i}, e ∈ x.due → e.payload = .reconnect i →
    ∃ deadline now, x.PolledBefore i e deadline now ∧
      (deadline ≤ now ∨ .cancelled e.handle ∈ x.service.timerCalls)

theorem OpenTimerStep.traced (h : x.OpenTimerStep y) (hreach : x.Reachable) (hstep : x.Step y) (hx : x.Traced) :
    y.Traced := by
  cases h with
  | @moves r due new hhandled horigins hrest hsub hnew =>
    refine ⟨fun {g e i} he hpayload => ?_, fun {e i} he hpayload => ?_⟩
    · cases horigins.origin he (by rw [hpayload]; rfl) with
      | waited he₀ hremains =>
        obtain ⟨deadline, hplanned, hsame⟩ := hx.waiting he₀ (hremains.payload.trans hpayload)
        refine ⟨deadline, hplanned.step hstep, ?_⟩
        rcases hsame with rfl | hcancelled
        · exact hremains.deadline
        · exact .inr (horigins.timerCalls hcancelled)
      | armed hissued honce hplanned hremains =>
        exact ⟨_, ⟨x, _, hreach, hstep, .refl, hplanned i (hremains.payload.trans hpayload)⟩,
          hremains.deadline⟩
    · obtain ⟨deadline, now, hpolled, hcome⟩ := hx.due (hsub he) hpayload
      exact ⟨deadline, now, hpolled.step hstep, hcome.imp_right fun h => horigins.timerCalls h⟩
  | poll hrunning hdue =>
    have hdesk := hdue ▸ hreach.kept.desk
    have htight := hdue ▸ hreach.tight.timers
    refine ⟨fun {g e i} he hpayload => ?_, fun {e i} he hpayload => ?_⟩
    · obtain ⟨he₀, -⟩ := htight.of_polled hdesk he (by rw [hpayload]; rfl)
      obtain ⟨deadline, hplanned, hsame⟩ := hx.waiting he₀ hpayload
      exact ⟨deadline, hplanned.step hstep, hsame⟩
    · obtain ⟨e₀, he₀, hexpired, hsame, -⟩ := hdesk.keyed.mem_pollExpired.1 he
      obtain ⟨deadline, hplanned, hat⟩ := hx.waiting he₀ (hsame.trans hpayload)
      refine ⟨deadline, _, hplanned.polled hrunning hdue he, hat.imp_left ?_⟩
      rintro rfl
      exact of_decide_eq_true hexpired
  | stop hdue =>
    have hnone : ∀ {g e}, x.reactor.teardown.service.timers.get? g ≠ some e := nofun
    refine ⟨fun he => absurd he hnone, fun {e i} he => ?_⟩
    simp [withReactor, hdue] at he
  | start hrunning hdue callback endpoints =>
    refine ⟨fun {g e i} he hpayload => ?_, by simp⟩
    have hnone := hreach.tight.idle hrunning (Service.timers_start hrunning _ _ ▸ he)
    simp [hpayload, Task.channel?] at hnone

theorem Reachable.traced (h : x.Reachable) : x.Traced := by
  obtain ⟨o, w, hsteps⟩ := h
  induction hsteps with
  | refl =>
    have hnone : ∀ {g e}, (new o w).service.timers.get? g ≠ some e := nofun
    exact ⟨fun he => absurd he hnone, by simp [new]⟩
  | tail hsteps hstep ih => exact hstep.openTimerStep.traced ⟨o, w, hsteps⟩ hstep ih

/-! ## Sleep -/

/-- A step of the same run in which no command opens channel `i`. -/
def Unasked (i : Nat) (x y : Course σ) : Prop :=
  x.Step y ∧ (y.service.running = true → x.service.running = true) ∧
    ¬ x.Performs (·.opens i) y.reactor

theorem Unasked.fits (h : x.Unasked i y) (hfits : y.reactor.transports.Fits) :
    x.reactor.transports.Fits := by
  obtain ⟨hstep, hsame, -⟩ := h
  cases hstep.openTimerStep with
  | moves hhandled horigins hrest hsub hnew => exact hhandled.trail.fits hfits
  | poll hrunning hdue => exact hfits
  | stop hdue => exact (Reactor.trail_closed x.reactor).fits hfits
  | start hrunning hdue callback endpoints =>
    exact absurd (hrunning.symm.trans (hsame (Service.running_start hrunning _ _))) (by simp)

/-- **No step of the run wakes a channel that nobody asks to open.** -/
theorem Unasked.dormant (h : x.Unasked i y) (hreach : x.Reachable)
    (hfits : y.reactor.transports.Fits) (hd : x.reactor.Dormant x.due i) :
    y.reactor.Dormant y.due i ∧ Reactor.TellsNone (Event.answers i) x.reactor y.reactor := by
  have hfits₀ := h.fits hfits
  obtain ⟨hstep, hsame, hunasked⟩ := h
  have hkept := hreach.kept
  cases hstep.openTimerStep with
  | @moves r due new hhandled horigins hrest hsub hnew =>
    by_cases hrunning : x.service.running = true
    · refine hd.handled hhandled horigins (fun mask hmem => ?_) (hkept.atRest hfits₀) hrunning hfits hsub
      rcases hnew hmem with hasked | ⟨e, rest, hdue, hpayload, hslot, -⟩
      · exact hunasked hasked
      · exact hd.unplanned hslot (.inr ⟨e, hdue ▸ List.mem_cons_self, rfl, hpayload⟩)
    · obtain ⟨hd', hsilent⟩ := hd.idle (hrest.resolve_left hrunning) hkept.desk
      refine ⟨⟨hd'.closed, fun hslot hwaits => hd'.unplanned hslot ?_⟩, hsilent⟩
      exact hwaits.imp_right fun ⟨e, he, hboth⟩ => ⟨e, hsub he, hboth⟩
  | poll hrunning hdue => exact (hdue ▸ hd).poll (hdue ▸ hkept.desk)
  | stop hdue =>
    obtain ⟨c, hc, -⟩ := hd.closed
    have hrest : x.reactor.AtRest [] := hdue ▸ hkept.atRest hfits₀
    have hteardown := Reactor.dormant_teardown hrest hfits hc
    rwa [← hdue] at hteardown
  | start hrunning hdue callback endpoints =>
    exact absurd (hrunning.symm.trans (hsame (Service.running_start hrunning _ _))) (by simp)

theorem dormant_of_unasked (h : Relation.ReflTransGen (Unasked i) x y) (hreach : x.Reachable)
    (hfits : y.reactor.transports.Fits) (hd : x.reactor.Dormant x.due i) :
    y.reactor.Dormant y.due i ∧ Reactor.TellsNone (Event.answers i) x.reactor y.reactor := by
  suffices y.Reachable ∧ y.reactor.Dormant y.due i ∧
      Reactor.TellsNone (Event.answers i) x.reactor y.reactor from this.2
  induction h with
  | refl => exact ⟨hreach, hd, .of_emitted rfl⟩
  | tail _ hstep ih =>
    obtain ⟨hreach', hd', hsilent⟩ := ih (hstep.fits hfits)
    obtain ⟨hd'', hsilent'⟩ := hstep.dormant hreach' hfits hd'
    exact ⟨hreach'.step hstep.1, hd'', hsilent.trans hsilent'⟩

/-- **A close that is carried out puts the client to sleep.** -/
theorem dormant_of_closes {c : Channel} (hreach : x.Reachable) (hfits : x.reactor.transports.Fits)
    (hc : x.reactor.channel? i = some c) (hserver : c.mask.isServer = false) {r : Reactor σ}
    (h : x.Performs (·.Closes x.reactor i) r) (due : List (Expired Task)) : r.Dormant due i := by
  obtain ⟨command, rest, -, hcloses, rfl⟩ := h
  cases command with
  | closeChannel j =>
    obtain rfl : j = i := hcloses
    exact Reactor.dormant_closeChannel hc hserver hfits
  | closeTransport id =>
    have hrest := hreach.kept.atRest_withCommands hfits rest
    exact Reactor.dormant_closeTransport hrest hc hserver hcloses
  | _ => exact hcloses.elim

/-! ## The law -/

/-- A plan to try channel `i` again waits in the queue, or is due and not given up. -/
def Plan (x : Course σ) (i : Nat) (g : Timer.Handle) : Prop :=
  (∃ e, x.service.timers.get? g = some e ∧ e.payload = .reconnect i) ∨
    ∃ e ∈ x.due, e.handle = g ∧ e.payload = .reconnect i ∧ x.reactor.slot i = some g

/-- What a client that is closed comes back by, and what not. -/
structure Governed (x : Course σ) (i : Nat) (c : Channel) : Prop where
  /-- It comes to open by a command that names it, or by its own timer. -/
  reopens : ∀ {y c'}, x.Step y → y.reactor.transports.Fits → y.reactor.channel? i = some c' →
    c.state ≠ .opening → c'.state = .opening →
      x.Performs (·.opens i) y.reactor ∨ x.Retries i y.reactor
  /-- Only a closed client of a stream has a plan to try again, and its slot names it. -/
  plan : ∀ {g}, x.Plan i g →
    c.state = .closed ∧ c.mask.isClient = true ∧ c.mask.isTcp = true ∧ c.timer = some g
  single : ∀ {g g'}, x.Plan i g → x.Plan i g' → g = g'
  /-- It was made after a failure, for as long after as the options then said, -/
  waiting : ∀ {g e}, x.service.timers.get? g = some e → e.payload = .reconnect i →
    ∃ deadline, x.PlannedBefore i g deadline ∧
      (deadline = e.deadline ∨ .cancelled g ∈ x.service.timerCalls)
  /-- and is due no earlier, unless the application cancelled it; -/
  due : ∀ {e}, e ∈ x.due → e.payload = .reconnect i →
    ∃ deadline now, x.PolledBefore i e deadline now ∧
      (deadline ≤ now ∨ .cancelled e.handle ∈ x.service.timerCalls)
  /-- which it cannot, if it cancels only timers that it was given. -/
  spared : Owned x.service.timerCalls → ∀ {g}, (x.reactor.desk x.due).Waits g (.reconnect i) →
    .cancelled g ∉ x.service.timerCalls
  /-- Closed from this side it stays closed, and is told of no more opens, until a command opens it. -/
  sleeps : ∀ {y z}, x.Step y → x.Performs (·.Closes x.reactor i) y.reactor →
    Relation.ReflTransGen (Unasked i) y z → z.reactor.transports.Fits →
      (∃ c', z.reactor.channel? i = some c' ∧ c'.state = .closed) ∧
        Reactor.TellsNone (Event.answers i) y.reactor z.reactor

theorem Step.reopens (hstep : x.Step y) (hreach : x.Reachable) (hrunning : x.service.running = true)
    (hfits : x.reactor.transports.Fits) (hfits' : y.reactor.transports.Fits) {c c' : Channel}
    (hc : x.reactor.channel? i = some c) (hserver : c.mask.isServer = false)
    (hc' : y.reactor.channel? i = some c') (hstate : c.state ≠ .opening)
    (hopening : c'.state = .opening) :
    x.Performs (·.opens i) y.reactor ∨ x.Retries i y.reactor := by
  have hrest := hreach.kept.atRest hfits
  cases hstep.openTimerStep with
  | @moves r due new hhandled horigins _ hsub hnew =>
    have hc' : r.channel? i = some c' := hc'
    rcases hhandled.rests hrest hfits' hc with ⟨-, c'', hc'', -, -, hsame⟩ | ⟨mask, rfl, -⟩
    · -- an open that was under way at the end was under way before
      have hundertaken := hsame hserver
      have hle : x.reactor.answers i ≤ r.answers i := hhandled.trail.answers_le hrest.sound hfits'
      rw [Reactor.undertaken_of_channel hc, Reactor.undertaken_of_channel hc', if_neg hstate,
        if_pos hopening] at hundertaken
      omega
    · exact hnew List.mem_cons_self
  | poll _ hdue =>
    obtain rfl := Option.some.inj (hc.symm.trans hc')
    exact absurd hopening hstate
  | stop hdue =>
    have hshut := (Reactor.atRest_closed hrest hfits').2 hc'
    simp [hshut.state] at hopening
  | start hstopped hdue callback endpoints => exact absurd (hrunning.symm.trans hstopped) (by simp)

/-- **A channel's plan to try again is a closed client's**, and its slot names it. -/
theorem Plan.closed {g : Timer.Handle} (h : x.Plan i g) (hreach : x.Reachable)
    (hfits : x.reactor.transports.Fits) {c : Channel} (hc : x.reactor.channel? i = some c) :
    c.state = .closed ∧ c.mask.isClient = true ∧ c.mask.isTcp = true ∧ c.timer = some g := by
  obtain ⟨hslot, hwaits⟩ : x.reactor.slot i = some g ∧
      (x.reactor.desk x.due).Waits g (.reconnect i) := by
    rcases h with ⟨e, he, hpayload⟩ | ⟨e, he, hhandle, hpayload, hslot⟩
    · exact ⟨(hreach.tight.timers.named he (by rw [hpayload]; rfl)).1, .inl ⟨e, he, hpayload⟩⟩
    · exact ⟨hslot, .inr ⟨e, he, hhandle, hpayload⟩⟩
  have htimer : c.timer = some g := (Reactor.slot_of_channel hc).symm.trans hslot
  have hsettled := hreach.kept.settled hfits hc
  have hclosed := hsettled.closed_of_reconnect htimer hwaits
  obtain ⟨-, -, -, hplanned⟩ := hsettled.of_closed hclosed
  have hmask := (hplanned g htimer).1
  rw [Bool.and_eq_true] at hmask
  exact ⟨hclosed, hmask.1, hmask.2, htimer⟩

/-- **The law of every client**, as long as a run lasts: what brings it back, when, and that nothing else
does. Never are more connections held than can be named. -/
theorem governed_of_reachable (h : x.Reachable) (hrunning : x.service.running = true)
    (hfits : x.reactor.transports.Fits) {c : Channel} (hc : x.reactor.channel? i = some c)
    (hclient : x.ClientOnly i) : x.Governed i c := by
  have hserver := (h.accounted hfits).not_server hrunning hc hclient
  refine {
    reopens := fun hstep hfits' hc' => hstep.reopens h hrunning hfits hfits' hc hserver hc'
    plan := fun hplan => hplan.closed h hfits hc
    single := fun {g g'} hplan hplan' => ?_
    waiting := h.traced.waiting
    due := h.traced.due
    spared := fun howned {g} hwaits => h.kept.desk.not_cancelled howned hwaits rfl
    sleeps := fun {y z} hstep hcloses hlater hfits' => ?_ }
  · have htimer := (hplan.closed h hfits hc).2.2.2
    exact Option.some.inj (htimer.symm.trans (hplan'.closed h hfits hc).2.2.2)
  · have hasleep := dormant_of_closes h hfits hc hserver hcloses y.due
    obtain ⟨hd, hsilent⟩ := dormant_of_unasked hlater (h.step hstep) hfits' hasleep
    obtain ⟨c', hc', hclosed, -⟩ := hd.closed
    exact ⟨⟨c', hc', hclosed⟩, hsilent⟩

open Simulation in
/-- A connect failed, the plan to try again is due, and before it fires the channel is to be closed. -/
theorem governed_with_plan_due_at_close : ∃ (x : Course Isolated) (c : Channel), x.Reachable ∧
    x.due = [⟨1, .reconnect 0, false⟩] ∧ x.reactor.channel? 0 = some c ∧ x.Plan 0 1 ∧
    (∃ y, x.Step y ∧ x.Performs (·.Closes x.reactor 0) y.reactor) ∧ x.Governed 0 c := by
  have hnew : (new (Options.standard.withReconnectTimeout (some (.ofMillis 100)))
    Isolated.new).Reachable := ⟨_, _, .refl⟩
  have hstart := hnew.step (.start rfl rfl 0 [⟨"10.0.0.1", 80⟩])
  have hasked := hstart.step (.request ⟨0⟩ (.openChannel 0 .tcpClient))
  have hfailed := hasked.step (.command (by rfl) (by rfl))
  have hlater := hfailed.step (.world { Isolated.new with clock := ⟨2000000000⟩ })
  have hdue := hlater.step (.poll (by rfl) (by rfl))
  have hclosing := hdue.step (.request ⟨0⟩ (.closeChannel 0))
  refine ⟨_, _, hclosing, by rfl, by rfl, ?_, ?_, ?_⟩
  · exact .inr ⟨⟨1, .reconnect 0, false⟩, List.mem_singleton.2 rfl, rfl, rfl, by rfl⟩
  · exact exists_performs (c := .closeChannel 0) (by rfl) (by rfl) rfl
  · exact governed_of_reachable hclosing (by rfl) (by decide) (by rfl) (by decide)

open Simulation in
/-- **A plan that the application cancelled is carried out before its deadline.** A connect failed, and the
handle of the plan to try again, which the application was never given, is cancelled: the poll that follows
takes the plan off the queue as due, and it opens the channel. -/
theorem retries_early_once_cancelled : ∃ (x y : Course Isolated) (deadline now : Instant), x.Reachable ∧
    x.service.running = true ∧ x.ClientOnly 0 ∧ x.due = [⟨1, .reconnect 0, true⟩] ∧
    x.PolledBefore 0 ⟨1, .reconnect 0, true⟩ deadline now ∧ now < deadline ∧
    x.Step y ∧ x.Retries 0 y.reactor ∧ y.opens = (0, .tcpClient) :: x.opens := by
  have hnew : (new (Options.standard.withReconnectTimeout (some (.ofMillis 100)))
    Isolated.new).Reachable := ⟨_, _, .refl⟩
  have hstart := hnew.step (.start rfl rfl 0 [⟨"10.0.0.1", 80⟩])
  have hasked := hstart.step (.request ⟨0⟩ (.openChannel 0 .tcpClient))
  have hfailed := hasked.step (.command (by rfl) (by rfl))
  obtain ⟨deadline, hplanned, hdeadline⟩ := hfailed.traced.waiting (g := 1) (by rfl) (by rfl)
  obtain rfl := hdeadline.resolve_right (by decide)
  have hcancelled := hfailed.step (.request ⟨0⟩ (.cancelTimer 1))
  have hplanned := hplanned.step (.request ⟨0⟩ (.cancelTimer 1))
  have hdue := hcancelled.step (.poll (by rfl) (by rfl))
  have hpolled := hplanned.polled (e := ⟨1, .reconnect 0, true⟩) (by rfl) (by rfl) (List.mem_singleton.2 rfl)
  refine ⟨_, _, _, _, hdue, by rfl, by decide, by rfl, hpolled, by decide, .fire (by rfl) (by rfl), ?_, by rfl⟩
  exact ⟨_, _, rfl, rfl, by rfl, rfl⟩

end Course

end NetReactor
