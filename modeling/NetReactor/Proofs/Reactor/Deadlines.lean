import NetReactor.Proofs.Reactor.Plans
import NetReactor.Proofs.Timer.Armings
import NetReactor.Simulation.Isolated

/-!
# Whether a clock can show every deadline

Timers are set by the application's requests, by the loop for its channels, and anew by a poll; none of them
checks the deadline against the end of the clock. Beside a run stands what was asked for and what timers were
set to (`Course.Account`). **As long as no timer is set later than `latest`, and no delay or timeout that was
given is longer than `longest`, a clock can show every deadline if and only if it can show their sum**
(`Course.due_inRange_iff`).
-/

namespace NetReactor

open Timer (Expired Entry Arming)

/-- What timer a request sets. -/
def Request.armings (now : Instant) : Request → List Arming
  | .schedule delay _ _ => [⟨now, delay⟩]
  | _ => []

/-- The timeouts that timers are set for are no longer. -/
structure Options.Within (longest : Duration) (o : Options) : Prop where
  connect : o.connectTimeout ≤ longest
  reconnect : ∀ d, o.reconnectTimeout = some d → d ≤ longest

/-- What a request gives to set timers for is no longer. -/
def Request.Within (longest : Duration) : Request → Prop
  | .schedule delay _ _ => delay ≤ longest
  | .setOption (.connectTimeout d) => d ≤ longest
  | .setOption (.reconnectTimeout d) => d ≤ longest
  | _ => True

theorem Request.within_of_mem {longest : Duration} {now : Instant} {q : Request} (hq : q.Within longest)
    {s : Arming} (hs : s ∈ q.armings now) : s.delay ≤ longest := by
  cases q with
  | schedule delay again timer =>
    obtain rfl := List.mem_singleton.1 hs
    exact hq
  | _ => simp [Request.armings] at hs

/-- A change of the options gives them a timeout of its own, or leaves it as it is. -/
theorem Change.timeouts_of_revise? {c : Change} {o o' : Options} (h : c.revise? o = some o') :
    (o'.connectTimeout = o.connectTimeout ∨ c = .connectTimeout o'.connectTimeout) ∧
      (o'.reconnectTimeout = o.reconnectTimeout ∨
        ∃ d, c = .reconnectTimeout d ∧ o'.reconnectTimeout = d.nonzero?) := by
  cases c with
  | connectTimeout d =>
    cases h
    exact ⟨.inr rfl, .inl rfl⟩
  | reconnectTimeout d =>
    cases h
    exact ⟨.inl rfl, .inr ⟨d, rfl, rfl⟩⟩
  | layout p =>
    simp only [revise?] at h
    split at h
    · rename_i hvalid
      cases h
      simp [Options.withLayout, hvalid]
    · simp at h
  | _ => cases h <;> exact ⟨.inl rfl, .inl rfl⟩

theorem Options.Within.revise {longest : Duration} {o o' : Options} (ho : o.Within longest) {c : Change}
    (hc : (Request.setOption c).Within longest) (h : c.revise? o = some o') : o'.Within longest := by
  obtain ⟨hconnect, hreconnect⟩ := Change.timeouts_of_revise? h
  constructor
  · rcases hconnect with hsame | rfl
    · exact hsame ▸ ho.connect
    · exact hc
  · intro d hd
    rcases hreconnect with hsame | ⟨d', rfl, hnonzero⟩
    · exact ho.reconnect d (hsame ▸ hd)
    · rw [hnonzero, Duration.nonzero?] at hd
      split at hd
      · simp at hd
      · exact Option.some.inj hd ▸ hc

namespace Service

variable {s : Service} {longest : Duration}

/-- The options and the timers of a service, as far as durations go. -/
structure Within (longest : Duration) (s : Service) : Prop where
  options : s.options.Within longest
  timers : Timer.Queue.Modest longest s.timers.entries

theorem Within.of_eq {s' : Service} (h : s.Within longest) (hoptions : s'.options = s.options)
    (htimers : s'.timers = s.timers) : s'.Within longest :=
  ⟨hoptions ▸ h.options, htimers ▸ h.timers⟩

/-- What is done under a condition only. -/
theorem Within.ite {s' : Service} {p : Prop} [Decidable p] (h : s.Within longest) (h' : s'.Within longest) :
    (if p then s else s').Within longest := by
  split
  · exact h
  · exact h'

theorem Within.addTimer (h : s.Within longest) (now : Instant) {delay : Duration} (hdelay : delay ≤ longest)
    (again : Bool) (task : Task) : (s.addTimer now delay again task).2.Within longest := by
  refine ⟨h.options, h.timers.put ?_⟩
  intro d hd
  cases again with
  | false => simp [Entry.after, Timer.Kind.ofDelay, Timer.Kind.interval?] at hd
  | true =>
    obtain rfl : delay = d := by simpa [Entry.after, Timer.Kind.ofDelay, Timer.Kind.interval?] using hd
    exact hdelay

theorem Within.cancelTimer (h : s.Within longest) (now : Instant) (g : Timer.Handle) :
    (s.cancelTimer now g).2.Within longest := by
  have hcancelled : Timer.Queue.Modest longest (s.timers.cancel now g).2.entries := by
    intro g' e d he hd
    obtain ⟨e₀, he₀, -, hkind, -⟩ := Timer.Queue.exists_of_get?_cancel he
    exact h.timers g' e₀ d he₀ (hkind ▸ hd)
  unfold Service.cancelTimer
  split
  · rename_i q hq
    rw [hq] at hcancelled
    exact ⟨h.options, hcancelled⟩
  · exact h

theorem Within.removeTimer (h : s.Within longest) (g : Timer.Handle) :
    (s.removeTimer g).2.Within longest := by
  refine ⟨h.options, h.timers.sub ?_⟩
  intro g' e he
  exact (Desk.ne_and_lookup_of_remove he).2

theorem Within.setOption (h : s.Within longest) {c : Change} (hc : (Request.setOption c).Within longest) :
    (s.setOption c).Within longest := by
  unfold Service.setOption
  split
  · exact h.of_eq rfl rfl
  · exact h.of_eq rfl rfl
  · exact h.of_eq rfl rfl
  · exact h.of_eq rfl rfl
  · exact h.of_eq rfl rfl
  · split
    · rename_i o hrevise
      exact ⟨h.options.revise hc hrevise, h.timers⟩
    · exact h

/-- **What a request gives is what the service has.** -/
theorem Within.perform (h : s.Within longest) (now : Instant) {q : Request} (hq : q.Within longest) :
    (s.perform now q).2.Within longest := by
  cases q with
  | openChannel channel mask => exact .ite (h.of_eq rfl rfl) h
  | closeChannel channel => exact .ite (h.of_eq rfl rfl) h
  | closeTransport g => exact .ite (h.of_eq rfl rfl) h
  | reopen g => exact .ite (h.of_eq rfl rfl) h
  | write g data => exact .ite (h.of_eq rfl rfl) h
  | schedule delay again timer => exact (h.addTimer now hq again _).of_eq rfl rfl
  | cancelTimer g => exact (h.cancelTimer now g).of_eq rfl rfl
  | removeTimer g => exact (h.removeTimer g).of_eq rfl rfl
  | setOption c => exact h.setOption hq
  | stop => exact .ite (h.of_eq rfl rfl) h

end Service

namespace Reactor

variable {σ : Type} [Host σ]

/-- The loop comes from `r₀` to another state; on the way the application makes requests, and timers are set,
each the latest first. -/
inductive Sets (r₀ : Reactor σ) : Reactor σ → List Request → List Arming → Prop
  | refl : Sets r₀ r₀ [] []
  /-- No timer is set, and the options stay. -/
  | still {r r' : Reactor σ} {asked : List Request} {armings : List Arming}
      (h : Sets r₀ r asked armings) (hworld : Host.Calls r.world r'.world)
      (hoptions : (r'.options, r'.service.options) = (r.options, r.service.options))
      (hgone : ∀ g e, r'.service.timers.get? g = some e → r.service.timers.get? g = some e) :
      Sets r₀ r' asked armings
  | ask {r : Reactor σ} {asked : List Request} {armings : List Arming} (h : Sets r₀ r asked armings)
      (now : Instant) (q : Request) :
      Sets r₀ { r with service := (r.service.perform now q).2 } (q :: asked) (q.armings now ++ armings)
  | arm {r : Reactor σ} {asked : List Request} {armings : List Arming} {i : Nat} {task : Task}
      {delay : Duration} (h : Sets r₀ r asked armings)
      (hdelay : delay = r.options.connectTimeout ∨ r.options.reconnectTimeout = some delay) :
      Sets r₀ (r.armed i delay task) asked (⟨(Host.now r.world).1, delay⟩ :: armings)

variable {r₀ r r' : Reactor σ} {asked : List Request} {armings : List Arming} {longest : Duration}

/-- **A row of deeds sets the timers that it arms and those that are asked for.** -/
theorem Deeds.exists_sets (h : Deeds r r') (hr : Sets r₀ r [] []) :
    ∃ asked armings, Sets r₀ r' asked armings := by
  induction h with
  | refl => exact ⟨[], [], hr⟩
  | aside h hworld hslots hrest ih =>
    obtain ⟨asked, armings, hsets⟩ := ih
    simp only [Service.agenda, Prod.mk.injEq] at hrest
    obtain ⟨hoptions, -, -, hshared, -, -, htimers, -⟩ := hrest
    exact ⟨asked, armings, hsets.still hworld (by rw [hoptions, hshared]) fun g e he => htimers ▸ he⟩
  | ask h now q ih =>
    obtain ⟨asked, armings, hsets⟩ := ih
    exact ⟨_, _, hsets.ask now q⟩
  | record h e ih =>
    obtain ⟨asked, armings, hsets⟩ := ih
    exact ⟨asked, armings, hsets.still (.refl _) rfl fun _ _ he => he⟩
  | @drop r i g h hg ih =>
    obtain ⟨asked, armings, hsets⟩ := ih
    refine ⟨asked, armings, hsets.still (.refl _) rfl ?_⟩
    intro g' e he
    exact (Desk.ne_and_lookup_of_remove he).2
  | arm h hc hempty hcause ih =>
    obtain ⟨asked, armings, hsets⟩ := ih
    refine ⟨asked, _, hsets.arm ?_⟩
    cases hcause with
    | opens => exact .inl rfl
    | fails hm hfails hdelay => exact .inr hdelay

/-- The loop's options and the service's, and the timers, as far as durations go. -/
structure Within (longest : Duration) (r : Reactor σ) : Prop where
  options : r.options.Within longest
  service : r.service.Within longest

/-- **What is set on the way is set for what the options or the requests give.** -/
theorem Sets.within (h : Sets r₀ r asked armings) (hr₀ : r₀.Within longest)
    (hasked : ∀ q ∈ asked, q.Within longest) :
    r.Within longest ∧ ∀ s ∈ armings, s.delay ≤ longest := by
  induction h with
  | refl => exact ⟨hr₀, by simp⟩
  | still h hworld hoptions hgone ih =>
    obtain ⟨hr, harmings⟩ := ih hasked
    simp only [Prod.mk.injEq] at hoptions
    refine ⟨⟨hoptions.1 ▸ hr.options, hoptions.2 ▸ hr.service.options, ?_⟩, harmings⟩
    exact hr.service.timers.sub hgone
  | @ask r asked armings h now q ih =>
    have hq : q.Within longest := hasked q List.mem_cons_self
    obtain ⟨hr, harmings⟩ := ih fun q' hq' => hasked q' (List.mem_cons_of_mem _ hq')
    refine ⟨⟨hr.options, hr.service.perform now hq⟩, ?_⟩
    intro s hs
    rcases List.mem_append.1 hs with hnew | hold
    · exact Request.within_of_mem hq hnew
    · exact harmings s hold
  | @arm r asked armings i task delay h hdelay ih =>
    obtain ⟨hr, harmings⟩ := ih hasked
    have hle : delay ≤ longest := by
      rcases hdelay with rfl | hsome
      · exact hr.options.connect
      · exact hr.options.reconnect delay hsome
    refine ⟨⟨hr.options, hr.service.addTimer _ hle false task⟩, ?_⟩
    intro s hs
    rcases List.mem_cons.1 hs with rfl | hold
    · exact hle
    · exact harmings s hold

/-! ## What is done from rest -/

/-- The requests of callbacks that events are handed to. -/
theorem Deeds.deliverAll (callback : Nat) (events : List Event) (h : Deeds r₀ r) :
    Deeds r₀ { r with
      service := (Service.deliverAll callback events r.service r.world).1
      world := (Service.deliverAll callback events r.service r.world).2 } := by
  induction events generalizing r with
  | nil => exact h
  | cons e rest ih => exact ih (h.deliver callback e)

theorem Deeds.dispatch (h : Deeds r₀ r) (max : Nat) : Deeds r₀ { r with
    service := (r.service.dispatch max r.world).2.1
    world := (r.service.dispatch max r.world).2.2 } := by
  rcases hbatch : EventQueue.popBatch r.service.events max with ⟨batch, rest⟩
  have htaken : Deeds r₀ { r with service := { r.service with events := rest } } := h.keep rfl
  cases hcallback : r.service.callback with
  | none =>
    have hgone : r.service.dispatch max r.world =
        (batch.length, { r.service with events := rest }, r.world) := by
      simp [Service.dispatch, hbatch, hcallback]
    rw [hgone]
    exact htaken
  | some callback =>
    have hgiven : r.service.dispatch max r.world = (batch.length,
        Service.deliverAll callback batch { r.service with events := rest } r.world) := by
      simp [Service.dispatch, hbatch, hcallback]
    rw [hgiven]
    exact htaken.deliverAll callback batch

end Reactor

namespace Course

variable {σ : Type} [Host σ]

/-- A step of a run: what the application asks for in it, and what timers are set to. -/
inductive Sets (x : Course σ) : Course σ → List Request → List Arming → Prop
  | request (now : Instant) (q : Request) :
      Sets x (x.withReactor { x.reactor with service := (x.service.perform now q).2 }) [q] (q.armings now)
  | handler {y : Course σ} {asked : List Request} {armings : List Arming}
      (h : x.reactor.Sets y.reactor asked armings) : Sets x y asked armings
  | poll : Sets x { x with reactor := x.reactor.pollTimers.2, due := x.reactor.pollTimers.1 } []
      (x.service.timers.armings (Host.now x.reactor.world).1)
  /-- No timer is set, and the loop's options stay or are renewed. -/
  | still {y : Course σ}
      (hoptions : y.reactor.options = x.reactor.options ∨ y.reactor.options = x.service.options)
      (hshared : y.service.options = x.service.options)
      (hgone : ∀ g e, y.service.timers.get? g = some e → x.service.timers.get? g = some e) : Sets x y [] []

variable {x y : Course σ} {o : Options} {asked : List Request} {armings : List Arming}

theorem exists_sets_of_deeds (h : Reactor.Deeds x.reactor y.reactor) :
    ∃ asked armings, x.Sets y asked armings := by
  obtain ⟨asked, armings, hsets⟩ := h.exists_sets .refl
  exact ⟨asked, armings, .handler hsets⟩

theorem exists_sets_of_act {a : Reactor.Act} (ha : a.isTimer = false) :
    ∃ asked armings, x.Sets (x.withReactor (x.reactor.act a)) asked armings := by
  refine Reactor.act_cases (T := .any) ha (fun _ => trivial) False.elim
    ⟨[], [], .still (.inl rfl) rfl fun _ _ he => he⟩ (fun _ => ⟨[], [], .still (.inl rfl) rfl fun _ _ he => he⟩)
    (fun ready => ?_) fun hchores => exists_sets_of_deeds hchores.deeds
  have hkept : (x.reactor.resetInterrupter ready).options = x.reactor.options ∧
      (x.reactor.resetInterrupter ready).service.options = x.service.options ∧
      (x.reactor.resetInterrupter ready).service.timers = x.service.timers := by
    unfold Reactor.resetInterrupter
    split
    · exact ⟨rfl, rfl, rfl⟩
    · exact ⟨rfl, rfl, rfl⟩
  exact ⟨[], [], .still (.inl hkept.1) hkept.2.1 fun g e he => hkept.2.2 ▸ he⟩

/-- **Every step of a run is accounted for.** -/
theorem Step.exists_sets (h : x.Step y) : ∃ asked armings, x.Sets y asked armings := by
  cases h with
  | request now q => exact ⟨_, _, .request now q⟩
  | dispatch max => exact exists_sets_of_deeds (Reactor.Deeds.refl.dispatch max)
  | world w => exact ⟨[], [], .still (.inl rfl) rfl fun _ _ he => he⟩
  | answer a => exact ⟨[], [], .still (.inl rfl) rfl fun _ _ he => he⟩
  | refresh hrunning =>
    refine ⟨[], [], .still ?_ ?_ ?_⟩
    · simp only [withReactor, Reactor.refreshOptions]
      split
      · exact .inl rfl
      · exact .inr rfl
    · exact congrArg (·.options) (Reactor.service_refreshOptions x.reactor)
    · intro g e he
      have hsame : (x.withReactor x.reactor.refreshOptions).service.timers = x.service.timers :=
        congrArg (·.timers) (Reactor.service_refreshOptions x.reactor)
      exact hsame ▸ he
  | act hrunning ha => exact exists_sets_of_act ha
  | @command c rest hrunning hc =>
    have hqueued : Reactor.Sets x.reactor (x.reactor.withCommands rest) [] [] :=
      .still .refl (.refl _) rfl fun _ _ he => he
    obtain ⟨asked, armings, hsets⟩ := (Reactor.deeds_perform _ c).exists_sets hqueued
    exact ⟨asked, armings, .handler hsets⟩
  | poll hrunning hdue => exact ⟨_, _, .poll⟩
  | @fire e rest hrunning hdue =>
    rcases Reactor.deeds_fire x.reactor e with hdeeds | ⟨i, -, -, hdeeds⟩
    · exact exists_sets_of_deeds hdeeds
    · have htaken : Reactor.Sets x.reactor (x.reactor.updateChannel i ({ · with timer := none })) [] [] :=
        .still .refl (.refl _) rfl fun _ _ he => he
      obtain ⟨asked, armings, hsets⟩ := hdeeds.exists_sets htaken
      exact ⟨asked, armings, .handler hsets⟩
  | stop hrunning hstopping hdue =>
    obtain ⟨asked, armings, hsets⟩ := (Reactor.deeds_closed x.reactor).exists_sets .refl
    refine ⟨asked, armings, .handler (hsets.still (.refl _) rfl ?_)⟩
    intro g e he
    have hempty : (none : Option (Entry Task)) = some e := he
    simp at hempty
  | start hrunning hdue callback endpoints =>
    rw [Service.start_of_not_running hrunning]
    exact ⟨[], [], .still (.inr rfl) rfl fun _ _ he => he⟩

/-- A run of a service that was made with these options: what the application asked for, and what timers were
set to, each the latest first. -/
inductive Account (o : Options) : Course σ → List Request → List Arming → Prop
  | new (w : σ) : Account o (new o w) [] []
  | step {x y : Course σ} {asked asked' : List Request} {armings armings' : List Arming}
      (h : Account o x asked armings) (hstep : x.Step y) (hsets : x.Sets y asked' armings') :
      Account o y (asked' ++ asked) (armings' ++ armings)

/-- **Every run is accounted for.** -/
theorem Reachable.exists_account (h : x.Reachable) : ∃ o asked armings, Account o x asked armings := by
  obtain ⟨o, w, hsteps⟩ := h
  refine ⟨o, ?_⟩
  induction hsteps with
  | refl => exact ⟨[], [], .new w⟩
  | tail _ hstep ih =>
    obtain ⟨asked, armings, haccount⟩ := ih
    obtain ⟨asked', armings', hsets⟩ := hstep.exists_sets
    exact ⟨_, _, haccount.step hstep hsets⟩

variable {longest : Duration}

theorem Sets.within (h : x.Sets y asked armings) (hx : x.reactor.Within longest)
    (hasked : ∀ q ∈ asked, q.Within longest) :
    y.reactor.Within longest ∧ ∀ s ∈ armings, s.delay ≤ longest := by
  cases h with
  | request now q =>
    have hq : q.Within longest := hasked q (List.mem_singleton_self q)
    exact ⟨⟨hx.options, hx.service.perform now hq⟩, fun s hs => Request.within_of_mem hq hs⟩
  | handler h => exact h.within hx hasked
  | poll =>
    obtain ⟨htimers, harmings⟩ := hx.service.timers.poll (Host.now x.reactor.world).1
    exact ⟨⟨hx.options, hx.service.options, htimers⟩, harmings⟩
  | still hoptions hshared hgone =>
    have hrenewed : y.reactor.options.Within longest := by
      rcases hoptions with hsame | hnew
      · exact hsame ▸ hx.options
      · exact hnew ▸ hx.service.options
    exact ⟨⟨hrenewed, hshared ▸ hx.service.options, hx.service.timers.sub hgone⟩, by simp⟩

/-- **No timer of a run is set for longer than what was given.** -/
theorem Account.within (h : Account o x asked armings) (ho : o.Within longest)
    (hasked : ∀ q ∈ asked, q.Within longest) :
    x.reactor.Within longest ∧ ∀ s ∈ armings, s.delay ≤ longest := by
  induction h with
  | new w =>
    have hempty : Timer.Queue.Modest longest (Course.new o w).service.timers.entries := by
      intro g e d he
      have hnone : (none : Option (Entry Task)) = some e := he
      simp at hnone
    exact ⟨⟨ho, ho, hempty⟩, by simp⟩
  | step h hstep hsets ih =>
    obtain ⟨hx, hold⟩ := ih fun q hq => hasked q (List.mem_append_right _ hq)
    obtain ⟨hy, hnew⟩ := hsets.within hx fun q hq => hasked q (List.mem_append_left _ hq)
    refine ⟨hy, ?_⟩
    intro s hs
    rcases List.mem_append.1 hs with hs | hs
    · exact hnew s hs
    · exact hold s hs

/-- **As long as no timer is set later than `latest`, and no delay or timeout that is given is longer than
`longest`, a clock can show the deadlines of all runs if and only if it can show their sum.** -/
theorem due_inRange_iff (latest : Instant) (longest : Duration) :
    (∀ (σ : Type) [Host σ] (x : Course σ) (o : Options) (asked : List Request) (armings : List Arming),
      Account o x asked armings → o.Within longest → (∀ q ∈ asked, q.Within longest) →
      (∀ s ∈ armings, s.now ≤ latest) → ∀ s ∈ armings, s.due.inRange = true) ↔
    (latest.add longest).inRange = true := by
  constructor
  · intro hall
    let o : Options := { Options.standard with connectTimeout := longest }
    have hnew : Account o (new o Simulation.Isolated.new) [] [] := .new _
    have haccount := hnew.step (.request latest (.schedule longest false 0)) (.request latest _)
    have ho : o.Within longest := ⟨Nat.le_refl _, by simp [o, Options.standard]⟩
    refine hall _ _ o _ _ haccount ho ?_ ?_ ⟨latest, longest⟩ List.mem_cons_self
    · intro q hq
      obtain rfl := List.mem_singleton.1 hq
      exact Nat.le_refl longest.nanos
    · intro s hs
      obtain rfl := List.mem_singleton.1 hs
      exact Int.le_refl latest.nanos
  · intro hfits σ _ x o asked armings haccount ho hasked hnow s hs
    exact Arming.inRange_due (hnow s hs) ((haccount.within ho hasked).2 s hs) hfits

/-- The longest delay there is, asked for when the clock starts, sets a deadline that no clock can show. -/
theorem out_of_range_on_longest_delay :
    ¬ ∀ (σ : Type) [Host σ] (x : Course σ) (o : Options) (asked : List Request) (armings : List Arming),
      Account o x asked armings → (∀ s ∈ armings, s.now.inRange = true) →
      ∀ s ∈ armings, s.due.inRange = true := by
  intro hall
  have hnew : Account Options.standard (new Options.standard Simulation.Isolated.new) [] [] := .new _
  have haccount := hnew.step (.request ⟨0⟩ (.schedule .max false 0)) (.request ⟨0⟩ _)
  have hnow : ∀ s ∈ Request.armings ⟨0⟩ (.schedule .max false 0) ++ [], s.now.inRange = true := by
    intro s hs
    obtain rfl := List.mem_singleton.1 hs
    decide
  have hlate : (Arming.due ⟨⟨0⟩, .max⟩).inRange = false := by decide
  exact Bool.false_ne_true (hlate.symm.trans (hall _ _ _ _ _ haccount hnow _ List.mem_cons_self))

end Course

end NetReactor
