import NetReactor.Proofs.Reactor.Deeds
import NetReactor.Simulation.Isolated

/-!
# No wakeup is lost

The loop's turn is taken apart into its steps, and any number of producers act between any two of them:
each publishes something for the loop and interrupts it afterwards (`Vigil`). One interrupter serves all
of them, and the loop resets it once a turn, though it takes up what was published at five places of the
turn. **While the loop waits and something published is not taken up, an interrupt is pending or still to
come** (`roused_of_awaited`): each of the five places comes after the reset, so that an interrupt which the
reset swallowed announced nothing that is still unseen.
-/

namespace NetReactor

open Timer (Expired)

/-! ## What producers publish -/

/-- What is published for the loop, before the interrupt that follows. -/
inductive Publication
  | command (c : Command)
  | message (h : Handle) (m : Outgoing)
  | schedule (now : Instant) (delay : Duration) (again : Bool) (timer : Nat)
  | cancel (now : Instant) (h : Timer.Handle)
  | revise (o : Options)
  | stop

namespace Service

variable {s s' s'' : Service}

def publish (s : Service) : Publication → Service
  | .command c => { s with commands := s.commands ++ [c] }
  | .message h m => s.updateConnection h (·.enqueue m)
  | .schedule now delay again timer => (s.addTimer now delay again (.user timer)).2
  | .cancel now h => { s with timers := (s.timers.cancel now h).2 }
  | .revise o => { s with options := o, version := s.version + 1 }
  | .stop => { s with stopping := true }

/-- What the loop takes up or acts upon: all but the events and the record of calls. -/
def matters (s : Service) :=
  (s.options, s.version, s.commands, s.interrupter, s.timers, s.nextTimer, s.running, s.stopping,
    s.connections)

/-- The timers' keys are in order, and no handle is used twice. -/
def Keyed (s : Service) : Prop := s.timers.Keyed (· < s.nextTimer)

/-- An interrupt that is pending stays, and new commands come with one. -/
structure Heard (s s' : Service) : Prop where
  pending : s.interrupter.pending = true → s'.interrupter.pending = true
  commands : s'.commands = s.commands ∨ s'.interrupter.pending = true

theorem Heard.refl (s : Service) : s.Heard s := ⟨id, .inl rfl⟩

theorem Heard.trans (h : s.Heard s') (h' : s'.Heard s'') : s.Heard s'' := by
  refine ⟨fun hpending => h'.pending (h.pending hpending), ?_⟩
  rcases h'.commands with hsame' | hpending
  · rcases h.commands with hsame | hpending
    · exact .inl (hsame'.trans hsame)
    · exact .inr (h'.pending hpending)
  · exact .inr hpending

theorem Heard.of_eq (h : (s'.commands, s'.interrupter) = (s.commands, s.interrupter)) :
    s.Heard s' := by
  simp only [Prod.mk.injEq] at h
  exact ⟨fun hpending => h.2 ▸ hpending, .inl h.1⟩

/-- Whatever a wake follows is heard. -/
theorem heard_wake (s s' : Service) : s.Heard s'.wake := ⟨fun _ => rfl, .inr rfl⟩

/-! ## Requests publish and interrupt -/

/-- What a request comes to: something published with an interrupt after it, a timer taken away, or
nothing that is the loop's concern. -/
inductive Asked (s s' : Service) : Prop
  | publish (p : Publication) (h : s'.matters = (s.publish p).wake.matters)
  | remove (g : Timer.Handle) (h : s'.matters = matters { s with timers := (s.timers.remove g).2 })
  | nothing (h : s'.matters = s.matters)

theorem Asked.ite {p : Prop} [Decidable p] (h : s.Asked s') : s.Asked (if p then s' else s) := by
  split
  · exact h
  · exact .nothing rfl

theorem asked_cancelTimer (s : Service) (now : Instant) (h : Timer.Handle) :
    s.Asked ((s.cancelTimer now h).2.recordCall (.cancelled h)) := by
  unfold cancelTimer
  split
  · rename_i q hq
    exact .publish (.cancel now h) (by simp [publish, matters, recordCall, wake, hq])
  · exact .nothing rfl

theorem asked_setOption (s : Service) (c : Change) : s.Asked (s.setOption c) := by
  unfold setOption
  split
  · exact .nothing rfl
  · rename_i channel port
    exact .publish (.command (.setLocalPort channel port)) rfl
  · rename_i channel host
    exact .publish (.command (.setRemote channel (some host) none)) rfl
  · rename_i channel port
    exact .publish (.command (.setRemote channel none (some port))) rfl
  · rename_i channel host port
    exact .publish (.command (.setRemote channel (some host) (some port))) rfl
  · split
    · rename_i o _
      exact .publish (.revise o) rfl
    · exact .nothing rfl

/-- **Whatever a request publishes, it interrupts the loop afterwards.** -/
theorem asked_perform (s : Service) (now : Instant) (q : Request) : s.Asked (s.perform now q).2 := by
  cases q with
  | openChannel channel mask => exact .ite (.publish (.command (.openChannel channel mask)) rfl)
  | closeChannel channel => exact .ite (.publish (.command (.closeChannel channel)) rfl)
  | closeTransport h => exact .ite (.publish (.command (.closeTransport h.id)) rfl)
  | reopen h => exact .ite (.publish (.command (.reopen h.channel h.id)) rfl)
  | write h data => exact .ite (.publish (.message h (.new data (s.options.sendDeadline now))) rfl)
  | schedule delay again timer => exact .publish (.schedule now delay again timer) rfl
  | cancelTimer h => exact asked_cancelTimer s now h
  | removeTimer h => exact .remove h rfl
  | setOption c => exact asked_setOption s c
  | stop => exact .ite (.publish .stop rfl)

theorem Heard.of_matters (h : s'.matters = s''.matters) (hheard : s.Heard s'') : s.Heard s' := by
  simp only [matters, Prod.mk.injEq] at h
  exact hheard.trans (.of_eq (by rw [h.2.2.1, h.2.2.2.1]))

theorem heard_perform (s : Service) (now : Instant) (q : Request) :
    s.Heard (s.perform now q).2 := by
  cases s.asked_perform now q with
  | publish p h => exact .of_matters h (heard_wake s _)
  | remove g h => exact .of_matters h (.of_eq rfl)
  | nothing h => exact .of_matters h (.refl s)

theorem Keyed.of_matters (h : s'.matters = s.matters) (hs : s.Keyed) : s'.Keyed := by
  simp only [matters, Prod.mk.injEq] at h
  obtain ⟨-, -, -, -, htimers, hnext, -⟩ := h
  rwa [Keyed, htimers, hnext]

/-- A timer under the next handle. -/
theorem Keyed.addTimer (hs : s.Keyed) (now : Instant) (delay : Duration) (again : Bool) (task : Task) :
    (s.addTimer now delay again task).2.Keyed := by
  refine (Timer.Queue.Keyed.insert hs (Nat.lt_irrefl s.nextTimer) _).mono fun g hg => ?_
  rcases hg with hlt | heq
  · exact Nat.lt_succ_of_lt hlt
  · exact heq ▸ Nat.lt_succ_self _

theorem Keyed.publish (hs : s.Keyed) (p : Publication) : (s.publish p).Keyed := by
  cases p with
  | schedule now delay again timer => exact hs.addTimer now delay again _
  | cancel now h => exact Timer.Queue.Keyed.cancel hs now h
  | _ => exact hs

theorem Keyed.perform (hs : s.Keyed) (now : Instant) (q : Request) : (s.perform now q).2.Keyed := by
  cases s.asked_perform now q with
  | publish p h =>
    have hpublished : (s.publish p).wake.Keyed := hs.publish p
    exact hpublished.of_matters h
  | remove g h =>
    have hremoved : Keyed { s with timers := (s.timers.remove g).2 } := Timer.Queue.Keyed.remove hs g
    exact hremoved.of_matters h
  | nothing h => exact hs.of_matters h

end Service

namespace Reactor

variable {σ : Type} [Host σ] {r₀ r : Reactor σ}

/-- **No handler overlooks a command that its callbacks queue.** -/
theorem Deeds.heard (h : Deeds r₀ r) : r₀.service.Heard r.service := by
  induction h with
  | refl => exact .refl _
  | aside h hworld hslots hrest ih =>
    simp only [Service.agenda, Prod.mk.injEq] at hrest
    exact ih.trans (.of_eq (by rw [hrest.2.2.1, hrest.2.2.2.2.2.1]))
  | ask h now q ih => exact ih.trans (Service.heard_perform _ now q)
  | record h e ih => exact ih.trans (.of_eq rfl)
  | drop h hg ih => exact ih.trans (.of_eq rfl)
  | arm h hc hempty hcause ih => exact ih.trans (.of_eq rfl)

theorem Deeds.keyed (h : Deeds r₀ r) (hr : r₀.service.Keyed) : r.service.Keyed := by
  induction h with
  | refl => exact hr
  | aside h hworld hslots hrest ih =>
    simp only [Service.agenda, Prod.mk.injEq] at hrest
    rw [Service.Keyed, hrest.2.2.2.2.2.2.1, hrest.2.2.2.2.2.2.2.1]
    exact ih
  | ask h now q ih => exact ih.perform now q
  | record h e ih => exact ih
  | @drop r i g h hg ih =>
    have hremoved : (r.service.removeTimer g).2.Keyed := Timer.Queue.Keyed.remove ih g
    exact hremoved
  | arm h hc hempty hcause ih => exact ih.addTimer _ _ false _

theorem heard_fire (r : Reactor σ) (e : Expired Task) (hr : r.service.Keyed) :
    r.service.Heard (r.fire e).service ∧ (r.fire e).service.Keyed := by
  rcases deeds_fire r e with h | ⟨i, -, -, h⟩
  · exact ⟨h.heard, h.keyed hr⟩
  · exact ⟨h.heard, h.keyed hr⟩

omit [Host σ] in
theorem service_updateInterest (r : Reactor σ) (id : TransportId) :
    (r.updateInterest id).service = r.service :=
  updateInterest_cases rfl fun _ _ _ _ => rfl

omit [Host σ] in
/-- A transport is left alone, or its interest is what its connection wants. -/
theorem interest_updateInterest {id id' : TransportId} {t : Transport}
    (ht : (r.updateInterest id).transports.get? id' = some t) :
    id' ≠ id ∧ r.transports.get? id' = some t ∨
      id' = id ∧ ∀ c, r.service.connection? t.handle = some c → t.interest = c.wanted := by
  by_cases hid : id' = id
  · subst hid
    refine .inr ⟨rfl, fun c hc => ?_⟩
    unfold updateInterest at ht
    split at ht
    · simp_all
    · rename_i t₀ ht₀
      split at ht
      · simp_all
      · rename_i c₀ hc₀
        split at ht
        · rename_i hsame
          obtain rfl := Option.some.inj (ht₀.symm.trans ht)
          rw [Option.some.inj (hc.symm.trans hc₀), hsame]
        · simp only [watchFor, Arena.get?_modify, ht₀, if_true, Option.map_some,
            Option.some.injEq] at ht
          subst ht
          rw [Option.some.inj (hc.symm.trans hc₀)]
  · refine .inl ⟨hid, ?_⟩
    unfold updateInterest at ht
    split at ht
    · exact ht
    · split at ht
      · exact ht
      · split at ht
        · exact ht
        · simp only [watchFor, Arena.get?_modify, if_neg hid] at ht
          simpa using ht

end Reactor

/-! ## The loop and its producers -/

/-- A loop at one point of its turn, and how many producers have published something and not interrupted
it yet. -/
structure Vigil (σ : Type) where
  reactor : Reactor σ
  phase : Phase
  owing : Nat

namespace Vigil

variable {σ : Type} [Host σ]

def service (x : Vigil σ) : Service := x.reactor.service

/-- A service that was never started. -/
def new (o : Options) (w : σ) : Vigil σ := ⟨.new (.ofOptions o) w [], .stopped, 0⟩

/-- One step of the loop, of a producer, or of the world. -/
inductive Step : Vigil σ → Vigil σ → Prop
  | start {r : Reactor σ} {k : Nat} (callback : Nat) (endpoints : List Endpoint) :
      Step ⟨r, .stopped, k⟩
        ⟨.new (r.service.start callback endpoints.length) r.world endpoints, .checking, k⟩
  | stop {r : Reactor σ} {k : Nat} (h : r.service.stopping = true) :
      Step ⟨r, .checking, k⟩ ⟨r.teardown, .stopped, k⟩
  | check {r : Reactor σ} {k : Nat} (h : r.service.stopping = false) :
      Step ⟨r, .checking, k⟩ ⟨r, .refreshing, k⟩
  | refresh {r : Reactor σ} {k : Nat} : Step ⟨r, .refreshing, k⟩ ⟨r.refreshOptions, .timing, k⟩
  | time {r : Reactor σ} {k : Nat} :
      Step ⟨r, .timing, k⟩ ⟨r.waitTimeout.2, .waiting (Host.now r.world).1 r.waitTimeout.1, k⟩
  /-- The wait ends, for whatever reason. -/
  | wake {r : Reactor σ} {now : Instant} {d : Duration} {k : Nat} :
      Step ⟨r, .waiting now d, k⟩ ⟨(r.await d).2, .resetting (r.await d).1, k⟩
  /-- The wait fails, and the loop starts its turn anew. -/
  | fail {r : Reactor σ} {now : Instant} {d : Duration} {k : Nat} :
      Step ⟨r, .waiting now d, k⟩ ⟨r, .checking, k⟩
  | reset {r : Reactor σ} {ready : List (Readiness Owner)} {k : Nat} :
      Step ⟨r, .resetting ready, k⟩ ⟨r.resetInterrupter ready, .draining ready, k⟩
  | command {r : Reactor σ} {c : Command} {rest : List Command} {ready : List (Readiness Owner)}
      {k : Nat} (hc : r.service.commands = c :: rest) :
      Step ⟨r, .draining ready, k⟩ ⟨(r.withCommands rest).perform c, .draining ready, k⟩
  | drained {r : Reactor σ} {ready : List (Readiness Owner)} {k : Nat} (hc : r.service.commands = []) :
      Step ⟨r, .draining ready, k⟩ ⟨r, .serving ready ready, k⟩
  | serve {r : Reactor σ} {x : Readiness Owner} {rest ready : List (Readiness Owner)} {k : Nat} :
      Step ⟨r, .serving (x :: rest) ready, k⟩ ⟨r.serveIfChannel x, .serving rest ready, k⟩
  | served {r : Reactor σ} {ready : List (Readiness Owner)} {k : Nat} :
      Step ⟨r, .serving [] ready, k⟩ ⟨r, .reading ready, k⟩
  | read {r : Reactor σ} {x : Readiness Owner} {rest : List (Readiness Owner)} {k : Nat} :
      Step ⟨r, .reading (x :: rest), k⟩ ⟨r.readIfTransport x, .reading rest, k⟩
  | readAll {r : Reactor σ} {k : Nat} :
      Step ⟨r, .reading [], k⟩ ⟨r.now.2, .flushing (Host.now r.world).1 r.now.2.transports.ids [], k⟩
  | flush {r : Reactor σ} {now : Instant} {id : TransportId} {rest : List TransportId}
      {failed : List (TransportId × Status)} {k : Nat} :
      Step ⟨r, .flushing now (id :: rest) failed, k⟩ ⟨(r.flushTransport now id).2, .flushing now rest
        (failed ++ ((r.flushTransport now id).1.map fun e => (id, e.status)).toList), k⟩
  | flushed {r : Reactor σ} {now : Instant} {failed : List (TransportId × Status)} {k : Nat} :
      Step ⟨r, .flushing now [] failed, k⟩ ⟨r, .losing failed, k⟩
  | lose {r : Reactor σ} {f : TransportId × Status} {rest : List (TransportId × Status)} {k : Nat} :
      Step ⟨r, .losing (f :: rest), k⟩ ⟨r.loseTransport f.1 f.2, .losing rest, k⟩
  | poll {r : Reactor σ} {k : Nat} :
      Step ⟨r, .losing [], k⟩ ⟨r.pollTimers.2, .firing r.pollTimers.1, k⟩
  | fire {r : Reactor σ} {e : Expired Task} {rest : List (Expired Task)} {k : Nat} :
      Step ⟨r, .firing (e :: rest), k⟩ ⟨r.fire e, .firing rest, k⟩
  | fired {r : Reactor σ} {k : Nat} : Step ⟨r, .firing [], k⟩ ⟨r, .updating r.transports.ids, k⟩
  | update {r : Reactor σ} {id : TransportId} {rest : List TransportId} {k : Nat} :
      Step ⟨r, .updating (id :: rest), k⟩ ⟨r.updateInterest id, .updating rest, k⟩
  | updated {r : Reactor σ} {k : Nat} : Step ⟨r, .updating [], k⟩ ⟨r, .checking, k⟩
  | publish {r : Reactor σ} {phase : Phase} {k : Nat} (p : Publication) :
      Step ⟨r, phase, k⟩ ⟨{ r with service := r.service.publish p }, phase, k + 1⟩
  | interrupt {r : Reactor σ} {phase : Phase} {k : Nat} :
      Step ⟨r, phase, k + 1⟩ ⟨{ r with service := r.service.wake }, phase, k⟩
  | remove {r : Reactor σ} {phase : Phase} {k : Nat} (g : Timer.Handle) :
      Step ⟨r, phase, k⟩
        ⟨{ r with service := { r.service with timers := (r.service.timers.remove g).2 } }, phase, k⟩
  /-- What is no concern of the loop's, and what the world does. -/
  | aside {r : Reactor σ} {s : Service} {phase : Phase} {k : Nat} (hs : s.matters = r.service.matters)
      (w : σ) : Step ⟨r, phase, k⟩ ⟨{ r with service := s, world := w }, phase, k⟩

/-- Any number of steps. -/
abbrev Steps : Vigil σ → Vigil σ → Prop := Relation.ReflTransGen Step

/-! ## Whole requests and whole turns -/

section Whole

variable {r : Reactor σ} {phase : Phase} {k : Nat}

theorem steps_aside (r : Reactor σ) (s : Service) (hs : s.matters = r.service.matters) (w : σ) :
    Steps ⟨r, phase, k⟩ ⟨{ r with service := s, world := w }, phase, k⟩ :=
  .single (.aside hs w)

/-- **A request is a publication and an interrupt**, at any point of the turn. -/
theorem steps_perform (r : Reactor σ) (now : Instant) (q : Request) :
    Steps ⟨r, phase, k⟩ ⟨{ r with service := (r.service.perform now q).2 }, phase, k⟩ := by
  cases r.service.asked_perform now q with
  | publish p h =>
    have hpublish : Step ⟨r, phase, k⟩ ⟨{ r with service := r.service.publish p }, phase, k + 1⟩ :=
      .publish p
    exact ((Relation.ReflTransGen.single hpublish).tail .interrupt).trans (steps_aside _ _ h r.world)
  | remove g h =>
    have hremove : Step ⟨r, phase, k⟩ ⟨{ r with
        service := { r.service with timers := (r.service.timers.remove g).2 } }, phase, k⟩ := .remove g
    exact (Relation.ReflTransGen.single hremove).trans (steps_aside _ _ h r.world)
  | nothing h => exact steps_aside _ _ h r.world

theorem steps_runScript (script : Script σ) (r : Reactor σ) :
    Steps ⟨r, phase, k⟩ ⟨{ r with
      service := (Service.runScript script r.service).1
      world := (Service.runScript script r.service).2 }, phase, k⟩ := by
  induction script generalizing r with
  | done w => exact steps_aside r _ rfl w
  | call w q next ih => exact (steps_perform r _ q).trans (ih _ _ _)

theorem steps_deliverAll (callback : Nat) (events : List Event) (r : Reactor σ) :
    Steps ⟨r, phase, k⟩ ⟨{ r with
      service := (Service.deliverAll callback events r.service r.world).1
      world := (Service.deliverAll callback events r.service r.world).2 }, phase, k⟩ := by
  induction events generalizing r with
  | nil => exact .refl
  | cons e rest ih =>
    let s := { r.service with delivered := r.service.delivered.push (callback, e) }
    have hrecorded : Steps ⟨r, phase, k⟩ ⟨{ r with service := s }, phase, k⟩ :=
      steps_aside r s rfl r.world
    have hplayed : Steps ⟨{ r with service := s }, phase, k⟩ _ :=
      steps_runScript (Application.onEvent callback e r.world) { r with service := s }
    exact hrecorded.trans (hplayed.trans (ih _))

/-- The events that an application takes from the queue, with all that its callback asks for. -/
theorem steps_dispatch (r : Reactor σ) (max : Nat) :
    Steps ⟨r, phase, k⟩ ⟨{ r with
      service := (r.service.dispatch max r.world).2.1
      world := (r.service.dispatch max r.world).2.2 }, phase, k⟩ := by
  let s := { r.service with events := (EventQueue.popBatch r.service.events max).2 }
  have hpopped : Steps ⟨r, phase, k⟩ ⟨{ r with service := s }, phase, k⟩ :=
    steps_aside r s rfl r.world
  simp only [Service.dispatch]
  split
  · exact hpopped.trans (steps_deliverAll _ _ _)
  · exact hpopped

theorem steps_flush (now : Instant)
    {f : List (TransportId × Status) × Reactor σ → TransportId → List (TransportId × Status) × Reactor σ}
    (hf : ∀ x id, f x id = (x.1 ++ ((x.2.flushTransport now id).1.map fun e => (id, e.status)).toList,
      (x.2.flushTransport now id).2)) (ids : List TransportId)
    (x : List (TransportId × Status) × Reactor σ) :
    Steps ⟨x.2, .flushing now ids x.1, k⟩
      ⟨(ids.foldl f x).2, .flushing now [] (ids.foldl f x).1, k⟩ := by
  induction ids generalizing x with
  | nil => exact .refl
  | cons id rest ih =>
    have hfirst : Step ⟨x.2, .flushing now (id :: rest) x.1, k⟩
        ⟨(f x id).2, .flushing now rest (f x id).1, k⟩ := hf x id ▸ .flush
    exact (Relation.ReflTransGen.single hfirst).trans (ih _)

theorem steps_flushTransports (r : Reactor σ) :
    Steps ⟨r, .reading [], k⟩ ⟨r.flushTransports, .losing [], k⟩ := by
  have hflushed : ∀ failed r', Steps ⟨r, .reading [], k⟩ ⟨r', .losing failed, k⟩ →
      Steps ⟨r, .reading [], k⟩ ⟨failed.foldl (fun r f => r.loseTransport f.1 f.2) r', .losing [], k⟩ :=
    fun failed r' => Reactor.handsOn_foldl (P := fun phase r' => Steps ⟨r, .reading [], k⟩ ⟨r', phase, k⟩)
      .losing (fun h => h.tail .lose) failed
  refine hflushed _ _ (.tail (.trans (.single .readAll) (steps_flush _ (fun x id => ?_) _ ([], r.now.2)))
    .flushed)
  split
  all_goals
    rename_i r' heq
    have hflush : x.2.flushTransport (Host.now r.world).1 id = (_, r') := heq
    simp [hflush]

theorem steps_updateInterests (r : Reactor σ) :
    Steps ⟨r, .firing [], k⟩ ⟨r.updateInterests, .checking, k⟩ := by
  have hupdated := Reactor.handsOn_foldl (P := fun phase r' => Steps ⟨r, .firing [], k⟩ ⟨r', phase, k⟩)
    .updating (fun h => h.tail .update) r.transports.ids (.single .fired)
  exact hupdated.tail .updated

/-- **A turn that nobody interferes with is a run of steps**, unless it carries out its whole count of
commands. -/
theorem steps_turn (r : Reactor σ) (hstopping : r.service.stopping = false) :
    Steps ⟨r, .checking, k⟩ ⟨r.turn, .checking, k⟩ ∨
      ∃ r₁ r₂ ready, Steps ⟨r, .checking, k⟩ ⟨r₁, .draining ready, k⟩ ∧
        r₁.Carries Reactor.commandsPerTurn r₂ := by
  have hparts : Reactor.HandsOn fun phase r' => Steps ⟨r, .checking, k⟩ ⟨r', phase, k⟩ ∨
      ∃ r₁ r₂ ready, Steps ⟨r, .checking, k⟩ ⟨r₁, .draining ready, k⟩ ∧
        r₁.Carries Reactor.commandsPerTurn r₂ :=
    { refresh := fun h => h.imp_left (·.tail .refresh)
      time := fun h => h.imp_left (·.tail .time)
      wake := fun h => h.imp_left (·.tail .wake)
      reset := fun h => h.imp_left (·.tail .reset)
      command := fun h hc => h.imp_left (·.tail (.command hc))
      drained := fun h₀ h hc => by
        rcases hc with hempty | hcarries
        · exact h.imp_left (·.tail (.drained hempty))
        · exact .inr (h₀.elim (fun hsteps => ⟨_, _, _, hsteps, hcarries⟩) id)
      serve := fun h => h.imp_left (·.tail .serve)
      served := fun h => h.imp_left (·.tail .served)
      read := fun h => h.imp_left (·.tail .read)
      flush := fun h => h.imp_left (·.trans (steps_flushTransports _))
      poll := fun h => h.imp_left (·.tail .poll)
      fire := fun h => h.imp_left (·.tail .fire)
      update := fun h => h.imp_left (·.trans (steps_updateInterests _)) }
  exact hparts.turn (.inl (.single (.check hstopping)))

end Whole

/-- What a service can come to. -/
def Reachable (x : Vigil σ) : Prop := ∃ o w, (new o w).Steps x

/-- An interrupt is pending, or a producer is about to make one. -/
def Roused (x : Vigil σ) : Prop := x.service.interrupter.pending = true ∨ 0 < x.owing

/-- Something is published that the loop has not taken up, and it has been waiting since `now` for
`timeout` at most. -/
inductive Awaited (x : Vigil σ) (now : Instant) (timeout : Duration) : Prop
  | command (h : x.service.commands ≠ [])
  | message {id : TransportId} {t : Transport} {c : Connection}
      (ht : x.reactor.transports.get? id = some t) (hc : x.service.connection? t.handle = some c)
      (hpending : c.hasPending = true) (hunwatched : t.interest.writable = false)
  | timer {g : Timer.Handle} {e : Timer.Entry Task} (he : x.service.timers.get? g = some e)
      (hdue : e.deadline.since now < timeout)
  | options (h : x.service.version ≠ x.reactor.version)
  | stop (h : x.service.stopping = true)

end Vigil

/-! ## What holds at every point of the turn -/

namespace Phase

/-- The interrupter may have been reset, and the queue is not empty yet. -/
def drains : Phase → Bool
  | .resetting _ | .draining _ => true
  | _ => false

/-- The work between the queue and the watch. -/
def works : Phase → Bool
  | .serving _ _ | .reading _ | .flushing _ _ _ | .losing _ | .firing _ => true
  | _ => false

/-- The loop has seen that it is not to stop, and goes on to wait. -/
def goes : Phase → Bool
  | .refreshing | .timing | .waiting _ _ => true
  | _ => false

/-- The loop has renewed its options, and goes on to wait. -/
def renewed : Phase → Bool
  | .timing | .waiting _ _ => true
  | _ => false

/-- The transports whose watch is not brought up to date, where all others' are. -/
def left? : Phase → Option (List TransportId)
  | .checking | .refreshing | .timing | .waiting _ _ => some []
  | .updating rest => some rest
  | _ => none

end Phase

namespace Vigil

variable {σ : Type}

/-- What is published waits in its place: it is taken up at a point still ahead, or the loop is roused. -/
structure Sound (x : Vigil σ) : Prop where
  keyed : x.service.Keyed
  commands : x.phase.drains = false → x.service.commands = [] ∨ x.Roused
  stopping : x.phase.goes = true → x.service.stopping = false ∨ x.Roused
  options : x.phase.renewed = true → x.service.version = x.reactor.version ∨ x.Roused
  messages : ∀ {rest id t c}, x.phase.left? = some rest → x.reactor.transports.get? id = some t →
    x.service.connection? t.handle = some c → c.hasPending = true →
      id ∈ rest ∨ t.interest.writable = true ∨ x.Roused
  timers : ∀ {now d g e}, x.phase = .waiting now d → x.service.timers.get? g = some e →
    d ≤ e.deadline.since now ∨ x.Roused

variable {r r' : Reactor σ} {phase : Phase} {k : Nat}

/-- While the loop is roused nothing can be overlooked. -/
theorem sound_of_roused {x : Vigil σ} (hkeyed : x.service.Keyed) (h : x.Roused) : x.Sound where
  keyed := hkeyed
  commands _ := .inr h
  stopping _ := .inr h
  options _ := .inr h
  messages _ _ _ _ := .inr (.inr h)
  timers _ _ := .inr h

/-- At work only the queue matters. -/
theorem sound_of_works (hphase : phase.works = true) (hkeyed : r.service.Keyed)
    (hcommands : r.service.commands = [] ∨ Roused ⟨r, phase, k⟩) : Sound ⟨r, phase, k⟩ := by
  cases phase with
  | serving rest ready => exact ⟨hkeyed, fun _ => hcommands, nofun, nofun, nofun, nofun⟩
  | reading rest => exact ⟨hkeyed, fun _ => hcommands, nofun, nofun, nofun, nofun⟩
  | flushing now rest failed => exact ⟨hkeyed, fun _ => hcommands, nofun, nofun, nofun, nofun⟩
  | losing failed => exact ⟨hkeyed, fun _ => hcommands, nofun, nofun, nofun, nofun⟩
  | firing due => exact ⟨hkeyed, fun _ => hcommands, nofun, nofun, nofun, nofun⟩
  | _ => simp [Phase.works] at hphase

/-- A command that is queued during the work rouses the loop. -/
theorem Sound.heard {x : Vigil σ} (hx : x.Sound) (hphase : x.phase.drains = false)
    (h : x.service.Heard r.service) :
    r.service.commands = [] ∨ Roused ⟨r, phase, x.owing⟩ := by
  rcases h.commands with hsame | hpending
  · rcases hx.commands hphase with hnil | hpending | howing
    · exact .inl (hsame.trans hnil)
    · exact .inr (.inl (h.pending hpending))
    · exact .inr (.inr howing)
  · exact .inr (.inl hpending)

/-- **A piece of work leaves nothing behind unheard.** -/
theorem Sound.work {x : Vigil σ} (hx : x.Sound) (hdrains : x.phase.drains = false)
    (hworks : phase.works = true) (h : x.service.Heard r.service) (hkeyed : r.service.Keyed) :
    Sound ⟨r, phase, x.owing⟩ :=
  sound_of_works hworks hkeyed (hx.heard hdrains h)

/-- Fewer timers, and whatever is no concern of the loop's. -/
theorem Sound.of_fewer (hx : Sound ⟨r, phase, k⟩) (hkeyed : r'.service.Keyed)
    (hsame : (r'.version, r'.transports, { r'.service with timers := r.service.timers }.matters) =
      (r.version, r.transports, r.service.matters))
    (htimers : ∀ {g e}, r'.service.timers.get? g = some e → r.service.timers.get? g = some e) :
    Sound ⟨r', phase, k⟩ := by
  simp only [Service.matters, Prod.mk.injEq] at hsame
  obtain ⟨hloop, htransports, -, hversion, hcommands, hinterrupter, -, -, -, hstopping, hconnections⟩ :=
    hsame
  have hroused : Roused ⟨r', phase, k⟩ ↔ Roused ⟨r, phase, k⟩ := by
    simp only [Roused, service, hinterrupter]
  refine ⟨hkeyed, ?_, ?_, ?_, ?_, fun hphase he => ?_⟩
  · simpa only [hroused, service, hcommands] using hx.commands
  · simpa only [hroused, service, hstopping] using hx.stopping
  · simpa only [hroused, service, hversion, hloop] using hx.options
  · intro rest id t c hleft ht hc hpending
    have hbefore := hx.messages hleft (htransports ▸ ht)
      (by simpa only [service, Service.connection?, hconnections] using hc) hpending
    exact hbefore.imp_right (·.imp_right hroused.2)
  · exact (hx.timers hphase (htimers he)).imp_right hroused.2

/-- The wait is no longer than until the first timer. -/
theorem Sound.time [Host σ] (hx : Sound ⟨r, .timing, k⟩) :
    Sound ⟨r.waitTimeout.2, .waiting (Host.now r.world).1 r.waitTimeout.1, k⟩ where
  keyed := Timer.Queue.Keyed.nextDeadline hx.keyed
  commands _ := hx.commands rfl
  stopping _ := hx.stopping rfl
  options _ := hx.options rfl
  messages hleft := hx.messages (x := ⟨r, .timing, k⟩) hleft
  timers hphase he := by
    obtain ⟨rfl, rfl⟩ := Phase.waiting.inj hphase
    exact .inl (Timer.Queue.Keyed.waitTimeout_le hx.keyed he _ Reactor.maxWait)

/-- **A transport that is brought up to date is watched for output if a message waits.** -/
theorem Sound.update {id : TransportId} {rest : List TransportId}
    (hx : Sound ⟨r, .updating (id :: rest), k⟩) : Sound ⟨r.updateInterest id, .updating rest, k⟩ := by
  have hservice := Reactor.service_updateInterest r id
  have hroused : Roused ⟨r.updateInterest id, .updating rest, k⟩ ↔
      Roused ⟨r, .updating (id :: rest), k⟩ := by
    simp only [Roused, service, hservice]
  refine ⟨?_, fun _ => ?_, nofun, nofun, ?_, nofun⟩
  · rw [service, hservice]
    exact hx.keyed
  · rw [hroused, service, hservice]
    exact hx.commands rfl
  · intro rest' id' t' c hleft ht' hc hpending
    obtain rfl := Option.some.inj hleft
    rw [service, hservice] at hc
    rw [hroused]
    rcases Reactor.interest_updateInterest ht' with ⟨hne, ht⟩ | ⟨rfl, hwanted⟩
    · rcases hx.messages rfl ht hc hpending with hmem | hrest
      · exact .inl ((List.mem_cons.1 hmem).resolve_left hne)
      · exact .inr hrest
    · refine .inr (.inl ?_)
      rw [hwanted c hc]
      exact hpending

variable [Host σ]

/-- **Every step keeps it.** -/
theorem Step.sound {x y : Vigil σ} (h : x.Step y) (hx : x.Sound) : y.Sound := by
  cases h with
  | @start r k callback endpoints =>
    have hsame : ((r.service.start callback endpoints.length).timers,
        (r.service.start callback endpoints.length).nextTimer,
        (r.service.start callback endpoints.length).commands,
        (r.service.start callback endpoints.length).interrupter) =
        (r.service.timers, r.service.nextTimer, r.service.commands, r.service.interrupter) := by
      unfold Service.start
      split <;> rfl
    simp only [Prod.mk.injEq] at hsame
    obtain ⟨htimers, hnext, hcommands, hinterrupter⟩ := hsame
    refine ⟨?_, fun _ => ?_, nofun, nofun, fun _ ht => ?_, nofun⟩
    · simpa only [service, Reactor.new, Service.Keyed, htimers, hnext] using hx.keyed
    · simpa only [service, Roused, Reactor.new, hcommands, hinterrupter] using hx.commands rfl
    · simp [Reactor.new, Arena.get?_empty] at ht
  | stop h => exact ⟨.clear _, fun _ => .inl rfl, nofun, nofun, nofun, nofun⟩
  | check h => exact ⟨hx.keyed, fun _ => hx.commands rfl, fun _ => .inl h, nofun, hx.messages, nofun⟩
  | @refresh r k =>
    unfold Reactor.refreshOptions
    split
    · rename_i hsame
      exact ⟨hx.keyed, fun _ => hx.commands rfl, fun _ => hx.stopping rfl, fun _ => .inl hsame.symm,
        hx.messages, nofun⟩
    · exact ⟨hx.keyed, fun _ => hx.commands rfl, fun _ => hx.stopping rfl, fun _ => .inl rfl,
        hx.messages, nofun⟩
  | time => exact hx.time
  | wake => exact ⟨hx.keyed, nofun, nofun, nofun, nofun, nofun⟩
  | fail => exact ⟨hx.keyed, fun _ => hx.commands rfl, nofun, nofun, hx.messages, nofun⟩
  | @reset r ready k =>
    refine ⟨?_, nofun, nofun, nofun, nofun, nofun⟩
    unfold Reactor.resetInterrupter
    split
    · exact hx.keyed
    · exact hx.keyed
  | @command r c rest ready k hc =>
    have hperform := Reactor.deeds_perform (r.withCommands rest) c
    exact ⟨hperform.keyed hx.keyed, nofun, nofun, nofun, nofun, nofun⟩
  | drained hc => exact sound_of_works rfl hx.keyed (.inl hc)
  | @serve r z rest ready k =>
    have hserve := (Reactor.chores_serveIfChannel (fun _ => trivial) False.elim z).deeds (r := r)
    exact hx.work rfl rfl hserve.heard (hserve.keyed hx.keyed)
  | served => exact hx.work rfl rfl (.refl _) hx.keyed
  | @read r z rest k =>
    have hread := (Reactor.chores_readIfTransport (fun _ => trivial) z).deeds (r := r)
    exact hx.work rfl rfl hread.heard (hread.keyed hx.keyed)
  | readAll => exact hx.work rfl rfl (.refl _) hx.keyed
  | @flush r now id rest failed k =>
    have hflush := (.refl : Reactor.Deeds r r).flushTransport now id
    exact hx.work rfl rfl hflush.heard (hflush.keyed hx.keyed)
  | flushed => exact hx.work rfl rfl (.refl _) hx.keyed
  | @lose r f rest k =>
    have hlose := (.refl : Reactor.Deeds r r).loseTransport f.1 f.2
    exact hx.work rfl rfl hlose.heard (hlose.keyed hx.keyed)
  | poll => exact hx.work rfl rfl (.of_eq rfl) (Timer.Queue.Keyed.pollExpired hx.keyed _)
  | @fire r e rest k =>
    obtain ⟨hheard, hkeyed⟩ := Reactor.heard_fire r e hx.keyed
    exact hx.work rfl rfl hheard hkeyed
  | fired =>
    refine ⟨hx.keyed, fun _ => hx.commands rfl, nofun, nofun, fun hleft ht _ _ => .inl ?_, nofun⟩
    obtain rfl := Option.some.inj hleft
    exact Arena.mem_ids_of_get? ht
  | update => exact hx.update
  | updated => exact ⟨hx.keyed, fun _ => hx.commands rfl, nofun, nofun, hx.messages, nofun⟩
  | publish p => exact sound_of_roused (hx.keyed.publish p) (.inr (Nat.succ_pos _))
  | interrupt => exact sound_of_roused hx.keyed (.inl rfl)
  | remove g =>
    exact hx.of_fewer (Timer.Queue.Keyed.remove hx.keyed g) rfl fun he =>
      (Desk.ne_and_lookup_of_remove he).2
  | @aside r s phase k hs w =>
    have hkeyed : r.service.Keyed := hx.keyed
    have htimers : s.timers = r.service.timers := congrArg (·.2.2.2.2.1) hs
    refine hx.of_fewer (hkeyed.of_matters hs) ?_ fun he => htimers ▸ he
    simp only [Prod.mk.injEq, true_and]
    simp only [Service.matters, Prod.mk.injEq] at hs ⊢
    exact ⟨hs.1, hs.2.1, hs.2.2.1, hs.2.2.2.1, trivial, hs.2.2.2.2.2⟩

theorem Reachable.sound {x : Vigil σ} (h : x.Reachable) : x.Sound := by
  obtain ⟨o, w, hsteps⟩ := h
  induction hsteps with
  | refl => exact ⟨.empty, fun _ => .inl rfl, nofun, nofun, nofun, nofun⟩
  | tail _ hstep ih => exact hstep.sound ih

/-- **While the loop waits and something that was published is not taken up, an interrupt is pending or
still to come.** -/
theorem roused_of_awaited {x : Vigil σ} (h : x.Reachable) {now : Instant} {timeout : Duration}
    (hphase : x.phase = .waiting now timeout) (hawaited : x.Awaited now timeout) : x.Roused := by
  obtain ⟨-, hcommands, hstopping, hoptions, hmessages, htimers⟩ := h.sound
  rw [hphase] at hcommands hstopping hoptions hmessages
  cases hawaited with
  | command hne => exact (hcommands rfl).resolve_left hne
  | message ht hc hpending hunwatched =>
    rcases hmessages rfl ht hc hpending with hmem | hwritable | hroused
    · simp at hmem
    · simp [hunwatched] at hwritable
    · exact hroused
  | timer he hdue => exact (htimers hphase he).resolve_left (Nat.not_le_of_lt hdue)
  | options hne => exact (hoptions rfl).resolve_left hne
  | stop hstop => exact (hstopping rfl).resolve_left (by simp [hstop])

open Simulation in
/-- The loop waits for five minutes, and a producer has queued an open but not interrupted yet. -/
theorem roused_of_open_during_wait : ∃ (x : Vigil Isolated) (now : Instant), x.Reachable ∧
    x.phase = .waiting now (.ofSecs 300) ∧ x.service.commands = [.openChannel 0 .tcpClient] ∧
    x.service.interrupter.pending = false ∧ x.Roused := by
  have hstart : Steps (new (σ := Isolated) Options.standard .new) _ := .single (.start 0 [⟨"svc.test", 80⟩])
  have hwaits := (((hstart.tail (.check (by rfl))).tail .refresh).tail .time).tail
    (.publish (.command (.openChannel 0 .tcpClient)))
  have hreach : Reachable _ := ⟨_, _, hwaits⟩
  refine ⟨_, Isolated.epoch, hreach, ?_⟩
  have hphase : Phase.waiting Isolated.epoch (.ofSecs 300) = .waiting Isolated.epoch (.ofSecs 300) := rfl
  exact ⟨hphase, by rfl, by rfl, roused_of_awaited hreach hphase (.command (List.cons_ne_nil _ _))⟩

end Vigil

end NetReactor
