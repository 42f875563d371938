import NetReactor.Proofs.Reactor.Targets
import NetReactor.Proofs.Reactor.Turn

/-!
# The life of a service

A service is started and stopped any number of times, each time with a loop and channels of its own.
What outlives a run is the service, its command queue among it, and **the lookups: a resolver works on
a thread of its own that nothing ends, and may post its one answer in a later run**. The application,
the resolvers and the world act at any time; the loop acts while it runs, handler by handler.
-/

namespace NetReactor

/-- A lookup that was started, and the run in which it was. -/
structure Flight where
  run : Nat
  lookup : Lookup
deriving DecidableEq, Repr

/-- What a flight brings. -/
def Flight.resolution (f : Flight) (answer : Except IoError (List SocketAddress)) (time : Instant) :
    Resolution :=
  ⟨f.lookup.channel, f.lookup.epoch, answer, time⟩

namespace Reactor

variable {σ : Type} [Host σ]

/-- What the loop does beside renewing its options and carrying commands out. -/
inductive Act
  | waitTimeout
  | await (d : Duration)
  | reset (ready : List (Readiness Owner))
  | serve (x : Readiness Owner)
  | read (x : Readiness Owner)
  | flush
  | pollTimers
  | fire (e : Timer.Expired Task)
  | updateInterests

theorem quiet_pollTimers (r : Reactor σ) : r.Quiet r.pollTimers.2 := by
  refine (quiet_now r).trans (quiet_service _ ?_)
  exact .of_eq rfl

def act (r : Reactor σ) : Act → Reactor σ
  | .waitTimeout => r.waitTimeout.2
  | .await d => (r.await d).2
  | .reset ready => r.resetInterrupter ready
  | .serve x => r.serveIfChannel x
  | .read x => r.readIfTransport x
  | .flush => r.flushTransports
  | .pollTimers => r.pollTimers.2
  | .fire e => r.fire e
  | .updateInterests => r.updateInterests

/-- Whether an act is about timers that are due. -/
def Act.isTimer : Act → Bool
  | .pollTimers | .fire _ => true
  | _ => false

/-- **An act that is not about timers is a wait, or a row of chores.** -/
@[elab_as_elim]
theorem act_cases {T : Terms} {r : Reactor σ} {a : Act} {motive : Reactor σ → Prop} (ha : a.isTimer = false)
    (hall : ∀ j, T.concerns j) (hripe : T.rests → r.Ripe) (htime : motive r.waitTimeout.2)
    (hwake : ∀ d, motive (r.await d).2) (hreset : ∀ ready, motive (r.resetInterrupter ready))
    (hchores : ∀ {r'}, Chores T r r' → motive r') : motive (r.act a) := by
  cases a with
  | waitTimeout => exact htime
  | await d => exact hwake d
  | reset ready => exact hreset ready
  | serve x => exact hchores (chores_serveIfChannel hall hripe x)
  | read x => exact hchores (chores_readIfTransport hall x)
  | flush => exact hchores (chores_flushTransports hall r)
  | updateInterests => exact hchores (chores_updateInterests hall r)
  | pollTimers => simp [Act.isTimer] at ha
  | fire e => simp [Act.isTimer] at ha

/-- **The targets follow whatever the loop does.** -/
theorem follows_act (r : Reactor σ) (a : Act) : r.Follows (r.act a) := by
  cases ha : a.isTimer with
  | false =>
    exact act_cases (T := .deaf) ha (fun _ => trivial) False.elim (quiet_waitTimeout r).follows
      (fun d => (quiet_await r d).follows) (fun ready => (quiet_resetInterrupter r ready).follows) Chores.follows
  | true =>
    cases a with
    | pollTimers => exact (quiet_pollTimers r).follows
    | fire e => exact follows_fire r e
    | _ => simp [Act.isTimer] at ha

/-- **No command touches the loop's options, queues an answer, or ends the run at once.** -/
theorem serves_perform (r : Reactor σ) (c : Command) :
    ((r.perform c).options, (r.perform c).version) = (r.options, r.version) ∧ r.Serves (r.perform c) := by
  cases h : c.isRequest with
  | true => exact ⟨(follows_perform r h).snapshot, (follows_perform r h).serves⟩
  | false =>
    cases c with
    | resolved a => exact ⟨(quiet_resolved r a).snapshot, (quiet_resolved r a).serves⟩
    | _ => simp [Command.isRequest] at h

theorem keeps_perform (r : Reactor σ) (c : Command) :
    ((r.perform c).options, (r.perform c).version) = (r.options, r.version) ∧
      r.service.Posts (r.perform c).service :=
  ⟨(serves_perform r c).1, (serves_perform r c).2.posts⟩

end Reactor

/-- A service with the loop that it has, or had last, and the lookups of all its life. -/
structure Lifetime (σ : Type) where
  reactor : Reactor σ
  /-- How often it was started. -/
  run : Nat
  /-- The lookups of the earlier runs. -/
  past : List Flight
  /-- Those whose answers were posted. -/
  answered : List Flight
  /-- Those whose answers wait in the command queue, in its order. -/
  queued : List Flight

namespace Lifetime

variable {σ : Type} [Host σ]

/-- A service that was never started. -/
def new (o : Options) (w : σ) : Lifetime σ := ⟨.new (.ofOptions o) w [], 0, [], [], []⟩

/-- Every lookup that was started. -/
def flights (x : Lifetime σ) : List Flight := x.reactor.lookups.map (⟨x.run, ·⟩) ++ x.past

def service (x : Lifetime σ) : Service := x.reactor.service

def withService (x : Lifetime σ) (s : Service) : Lifetime σ :=
  { x with reactor := { x.reactor with service := s } }

/-- One thing that happens. -/
inductive Step : Lifetime σ → Lifetime σ → Prop
  | request {x : Lifetime σ} (now : Instant) (q : Request) :
      Step x (x.withService (x.service.perform now q).2)
  | dispatch {x : Lifetime σ} (max : Nat) :
      Step x { x with reactor := { x.reactor with
        service := (x.service.dispatch max x.reactor.world).2.1
        world := (x.service.dispatch max x.reactor.world).2.2 } }
  | world {x : Lifetime σ} (w : σ) : Step x { x with reactor := { x.reactor with world := w } }
  /-- A resolver posts its answer, once. -/
  | answer {x : Lifetime σ} {f : Flight} (h : x.answered.count f < x.flights.count f)
      (answer : Except IoError (List SocketAddress)) (time : Instant) :
      Step x { x.withService (x.service.post (.resolved (f.resolution answer time))) with
        answered := f :: x.answered
        queued := x.queued ++ [f] }
  | refresh {x : Lifetime σ} (hrunning : x.service.running) :
      Step x { x with reactor := x.reactor.refreshOptions }
  | act {x : Lifetime σ} (hrunning : x.service.running) (a : Reactor.Act) :
      Step x { x with reactor := x.reactor.act a }
  /-- The loop carries its next command out. -/
  | command {x : Lifetime σ} {c : Command} {rest : List Command} (hrunning : x.service.running)
      (hc : x.service.commands = c :: rest) :
      Step x { x with
        reactor := (x.reactor.withCommands rest).perform c
        queued := if c.isRequest then x.queued else x.queued.tail }
  | stop {x : Lifetime σ} (hrunning : x.service.running) (hstopping : x.service.stopping) :
      Step x { x with reactor := x.reactor.teardown, queued := [] }
  | start {x : Lifetime σ} (hrunning : x.service.running = false) (callback : Nat)
      (endpoints : List Endpoint) :
      Step x { x with
        reactor := .new (x.service.start callback endpoints.length) x.reactor.world endpoints
        run := x.run + 1
        past := x.flights }

/-- Any number of steps. -/
abbrev Steps : Lifetime σ → Lifetime σ → Prop := Relation.ReflTransGen Step

/-- What a service can come to. -/
def Reachable (x : Lifetime σ) : Prop := ∃ o w, (new o w).Steps x

theorem Reachable.step {x y : Lifetime σ} (h : x.Reachable) (hstep : x.Step y) : y.Reachable := by
  obtain ⟨o, w, hsteps⟩ := h
  exact ⟨o, w, hsteps.tail hstep⟩

/-- **What holds of a new service and is kept by every step holds of all that it can come to.** -/
theorem Reachable.invariant {P : Lifetime σ → Prop} {x : Lifetime σ} (h : x.Reachable)
    (hnew : ∀ o w, P (new o w)) (hstep : ∀ x y : Lifetime σ, x.Step y → P x → P y) : P x := by
  obtain ⟨o, w, hsteps⟩ := h
  induction hsteps with
  | refl => exact hnew o w
  | tail _ hlast ih => exact hstep _ _ hlast ih

/-! ## A turn is a run of steps -/

/-- The loop can come to `r` by steps of its own. -/
def Goes (x : Lifetime σ) (r : Reactor σ) : Prop :=
  r.service.running = x.service.running ∧ ∃ queued, x.Steps { x with reactor := r, queued := queued }

theorem Goes.act {x : Lifetime σ} {r : Reactor σ} (h : x.Goes r) (hrunning : x.service.running)
    (a : Reactor.Act) : x.Goes (r.act a) := by
  obtain ⟨hsame, queued, hsteps⟩ := h
  refine ⟨(Reactor.follows_act r a).posts.running.trans hsame, queued, hsteps.tail ?_⟩
  have hact := Step.act (x := { x with reactor := r, queued := queued }) (hsame.trans hrunning) a
  exact hact

theorem Goes.command {x : Lifetime σ} {r : Reactor σ} {c : Command} {rest : List Command} (h : x.Goes r)
    (hrunning : x.service.running) (hc : r.service.commands = c :: rest) :
    x.Goes ((r.withCommands rest).perform c) := by
  obtain ⟨hsame, queued, hsteps⟩ := h
  have hcommand := Step.command (x := { x with reactor := r, queued := queued })
    (hsame.trans hrunning) hc
  exact ⟨(Reactor.keeps_perform _ c).2.running.trans hsame, _, hsteps.tail hcommand⟩

/-- While the service runs, every part of a turn is a step or some. -/
theorem handsOn_goes {x : Lifetime σ} (hrunning : x.service.running) :
    Reactor.HandsOn fun _ r => x.Goes r where
  refresh h := by
    obtain ⟨hsame, queued, hsteps⟩ := h
    have hrefresh := Step.refresh (x := { x with reactor := _, queued := queued }) (hsame.trans hrunning)
    refine ⟨?_, queued, hsteps.tail hrefresh⟩
    rw [Reactor.service_refreshOptions]
    exact hsame
  time h := h.act hrunning .waitTimeout
  wake h := h.act hrunning (.await _)
  reset h := h.act hrunning (.reset _)
  command h hc := h.command hrunning hc
  drained _ h _ := h
  serve h := h.act hrunning (.serve _)
  served h := h
  read h := h.act hrunning (.read _)
  flush h := h.act hrunning .flush
  poll h := h.act hrunning .pollTimers
  fire h := h.act hrunning (.fire _)
  update h := h.act hrunning .updateInterests

/-- **While the service runs, a whole turn of the loop is a run of steps.** -/
theorem goes_turn {x : Lifetime σ} (hrunning : x.service.running) : x.Goes x.reactor.turn :=
  (handsOn_goes hrunning).turn ⟨rfl, x.queued, .refl⟩

end Lifetime

end NetReactor
