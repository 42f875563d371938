import NetReactor.Proofs.Reactor.Lifetime
import NetReactor.Proofs.Reactor.Rows

/-!
# The course of the loop's runs

A service with its loop, step by step: the application calls, resolvers answer and the world changes at
any time; the loop acts while it runs, handler by handler. Timers that are due are taken off the queue
together and fire one after the other, and what one of them does may concern those that are still to
fire (`due`). Beside the loop stands what happened in its current run: **the opens it took up, and from
where on its events and connections are this run's**.
-/

namespace NetReactor

namespace Service

variable {s : Service}

theorem start_of_not_running (h : s.running = false) (callback channels : Nat) :
    s.start callback channels = { s with
      running := true
      stopping := false
      callback := some callback
      states := List.replicate channels .closed } := by
  simp [start, h]

theorem running_start (h : s.running = false) (callback channels : Nat) :
    (s.start callback channels).running = true := by
  rw [start_of_not_running h]

/-- The application's timers stay when a run starts. -/
theorem timers_start (h : s.running = false) (callback channels : Nat) :
    (s.start callback channels).timers = s.timers := by
  rw [start_of_not_running h]

end Service

namespace Reactor

variable {σ : Type} [Host σ]

/-- An open that is asked for, if it is taken up: not one with an invalid mask, nor of a channel that is
opening. -/
def taken (r : Reactor σ) (i : Nat) (mask : ChannelMask) : List (Nat × ChannelMask) :=
  if mask.isValid && (r.channel? i).any (·.state ≠ .opening) then [(i, mask)] else []

/-- The open that a command comes to. -/
def takenBy (r : Reactor σ) : Command → List (Nat × ChannelMask)
  | .openChannel i mask => r.taken i mask
  | .reopen i id =>
    match (r.closeTransport id).channel? i with
    | some c => (r.closeTransport id).taken i c.mask
    | none => []
  | _ => []

/-- The open that a fired timer comes to. -/
def takenUpon (r : Reactor σ) (e : Timer.Expired Task) : List (Nat × ChannelMask) :=
  match e.payload with
  | .reconnect i =>
    match r.channel? i with
    | some c => if c.timer = some e.handle && c.state = .closed then r.taken i c.mask else []
    | none => []
  | _ => []

theorem idle_waitTimeout (r : Reactor σ) : r.Idle r.waitTimeout.2 := by
  refine ⟨rfl, rfl, .trans (.single .wait) (.of_books rfl)⟩

theorem idle_await (r : Reactor σ) (d : Duration) : r.Idle (r.await d).2 := ⟨rfl, rfl, .refl _⟩

omit [Host σ] in
theorem idle_resetInterrupter (r : Reactor σ) (ready : List (Readiness Owner)) :
    r.Idle (r.resetInterrupter ready) := by
  unfold resetInterrupter
  split
  · exact ⟨rfl, rfl, .of_books rfl⟩
  · exact .refl r

omit [Host σ] in
theorem idle_refreshOptions (r : Reactor σ) : r.Idle r.refreshOptions := by
  unfold refreshOptions
  split
  · exact .refl r
  · exact ⟨rfl, rfl, .refl _⟩

omit [Host σ] in
/-- Commands are taken off the queue. -/
theorem idle_withCommands (r : Reactor σ) (commands : List Command) : r.Idle (r.withCommands commands) :=
  ⟨rfl, rfl, .of_books rfl⟩

end Reactor

/-- A service with its loop, and what happened in the loop's run. -/
structure Course (σ : Type) where
  reactor : Reactor σ
  /-- The timers that were due and are still to fire, in order. -/
  due : List (Timer.Expired Task)
  /-- The opens taken up, the latest first. -/
  opens : List (Nat × ChannelMask)
  /-- How many events earlier runs produced. -/
  told : Nat
  /-- How many connections earlier runs made. -/
  made : Nat

namespace Course

variable {σ : Type} [Host σ]

def service (x : Course σ) : Service := x.reactor.service

/-- The run's events, in order. -/
def log (x : Course σ) : List Emission := x.service.emitted.toList.drop x.told

/-- A service that was never started. -/
def new (o : Options) (w : σ) : Course σ := ⟨.new (.ofOptions o) w [], [], [], 0, 0⟩

/-- The loop comes to `r`, and the rest stays. -/
def withReactor (x : Course σ) (r : Reactor σ) : Course σ := { x with reactor := r }

/-- One thing that happens. -/
inductive Step : Course σ → Course σ → Prop
  | request {x : Course σ} (now : Instant) (q : Request) :
      Step x (x.withReactor { x.reactor with service := (x.service.perform now q).2 })
  | dispatch {x : Course σ} (max : Nat) :
      Step x (x.withReactor { x.reactor with
        service := (x.service.dispatch max x.reactor.world).2.1
        world := (x.service.dispatch max x.reactor.world).2.2 })
  | world {x : Course σ} (w : σ) : Step x (x.withReactor { x.reactor with world := w })
  /-- A resolver posts an answer. -/
  | answer {x : Course σ} (a : Resolution) :
      Step x (x.withReactor { x.reactor with service := x.service.post (.resolved a) })
  | refresh {x : Course σ} (hrunning : x.service.running) :
      Step x (x.withReactor x.reactor.refreshOptions)
  | act {x : Course σ} (hrunning : x.service.running) {a : Reactor.Act} (ha : a.isTimer = false) :
      Step x (x.withReactor (x.reactor.act a))
  /-- The loop carries its next command out. -/
  | command {x : Course σ} {c : Command} {rest : List Command} (hrunning : x.service.running)
      (hc : x.service.commands = c :: rest) :
      Step x { x with
        reactor := (x.reactor.withCommands rest).perform c
        opens := (x.reactor.withCommands rest).takenBy c ++ x.opens }
  /-- The timers that are due are taken off the queue. -/
  | poll {x : Course σ} (hrunning : x.service.running) (hdue : x.due = []) :
      Step x { x with reactor := x.reactor.pollTimers.2, due := x.reactor.pollTimers.1 }
  | fire {x : Course σ} {e : Timer.Expired Task} {rest : List (Timer.Expired Task)}
      (hrunning : x.service.running) (hdue : x.due = e :: rest) :
      Step x { x with
        reactor := x.reactor.fire e
        due := rest
        opens := x.reactor.takenUpon e ++ x.opens }
  | stop {x : Course σ} (hrunning : x.service.running) (hstopping : x.service.stopping)
      (hdue : x.due = []) : Step x (x.withReactor x.reactor.teardown)
  /-- A run starts, with channels of its own. -/
  | start {x : Course σ} (hrunning : x.service.running = false) (hdue : x.due = []) (callback : Nat)
      (endpoints : List Endpoint) :
      Step x {
        reactor := .new (x.service.start callback endpoints.length) x.reactor.world endpoints
        due := []
        opens := []
        told := x.service.emitted.size
        made := x.service.connections.size }

/-- Any number of steps. -/
abbrev Steps : Course σ → Course σ → Prop := Relation.ReflTransGen Step

/-- Any number of steps of one kind. -/
def Along (P : Course σ → Course σ → Prop) : Course σ → Course σ → Prop :=
  Relation.ReflTransGen fun x y => x.Step y ∧ P x y

theorem Along.refl {P : Course σ → Course σ → Prop} (x : Course σ) : Along P x x :=
  Relation.ReflTransGen.refl

theorem Along.step {P : Course σ → Course σ → Prop} {x y z : Course σ} (h : Along P x y)
    (hstep : y.Step z) (hkind : P y z) : Along P x z :=
  Relation.ReflTransGen.tail h ⟨hstep, hkind⟩

theorem Along.steps {P : Course σ → Course σ → Prop} {x y : Course σ} (h : Along P x y) :
    x.Steps y := by
  induction h with
  | refl => exact .refl
  | tail _ hstep ih => exact ih.tail hstep.1

/-- What a service can come to. -/
def Reachable (x : Course σ) : Prop := ∃ o w, (new o w).Steps x

theorem Reachable.step {x y : Course σ} (h : x.Reachable) (hstep : x.Step y) : y.Reachable := by
  obtain ⟨o, w, hsteps⟩ := h
  exact ⟨o, w, hsteps.tail hstep⟩

/-! ## A turn is a run of steps -/

/-- The loop can come to `r`, with these timers still to fire, by steps of its own. -/
def Goes (x : Course σ) (r : Reactor σ) (due : List (Timer.Expired Task)) : Prop :=
  r.service.running = x.service.running ∧
    ∃ opens, x.Steps { x with reactor := r, due := due, opens := opens }

theorem Goes.act {x : Course σ} {r : Reactor σ} {due : List (Timer.Expired Task)} (h : x.Goes r due)
    (hrunning : x.service.running) {a : Reactor.Act} (ha : a.isTimer = false) :
    x.Goes (r.act a) due := by
  obtain ⟨hsame, opens, hsteps⟩ := h
  refine ⟨(Reactor.follows_act r a).posts.running.trans hsame, opens, hsteps.tail ?_⟩
  have hact := Step.act (x := { x with reactor := r, due := due, opens := opens })
    (hsame.trans hrunning) ha
  exact hact

theorem Goes.command {x : Course σ} {r : Reactor σ} {due : List (Timer.Expired Task)} {c : Command}
    {rest : List Command} (h : x.Goes r due) (hrunning : x.service.running)
    (hc : r.service.commands = c :: rest) : x.Goes ((r.withCommands rest).perform c) due := by
  obtain ⟨hsame, opens, hsteps⟩ := h
  have hcommand := Step.command (x := { x with reactor := r, due := due, opens := opens })
    (hsame.trans hrunning) hc
  exact ⟨(Reactor.keeps_perform _ c).2.running.trans hsame, _, hsteps.tail hcommand⟩

theorem Goes.poll {x : Course σ} {r : Reactor σ} (h : x.Goes r []) (hrunning : x.service.running) :
    x.Goes r.pollTimers.2 r.pollTimers.1 := by
  obtain ⟨hsame, opens, hsteps⟩ := h
  have hpoll := Step.poll (x := { x with reactor := r, due := [], opens := opens })
    (hsame.trans hrunning) rfl
  exact ⟨(Reactor.quiet_pollTimers r).posts.running.trans hsame, opens, hsteps.tail hpoll⟩

theorem Goes.fire {x : Course σ} {r : Reactor σ} {e : Timer.Expired Task}
    {rest : List (Timer.Expired Task)} (h : x.Goes r (e :: rest)) (hrunning : x.service.running) :
    x.Goes (r.fire e) rest := by
  obtain ⟨hsame, opens, hsteps⟩ := h
  have hfire := Step.fire (x := { x with reactor := r, due := e :: rest, opens := opens })
    (hsame.trans hrunning) rfl
  exact ⟨(Reactor.follows_fire r e).posts.running.trans hsame, _, hsteps.tail hfire⟩

/-- While the service runs, every part of a turn is a step or some. -/
theorem handsOn_goes_due {x : Course σ} (hrunning : x.service.running) :
    Reactor.HandsOn fun phase r => x.Goes r phase.due where
  refresh h := by
    obtain ⟨hsame, opens, hsteps⟩ := h
    have hrefresh := Step.refresh (x := { x with reactor := _, due := [], opens := opens })
      (hsame.trans hrunning)
    refine ⟨?_, opens, hsteps.tail hrefresh⟩
    rw [Reactor.service_refreshOptions]
    exact hsame
  time h := h.act hrunning (a := .waitTimeout) rfl
  wake h := h.act hrunning (a := .await _) rfl
  reset h := h.act hrunning (a := .reset _) rfl
  command h hc := h.command hrunning hc
  drained _ h _ := h
  serve h := h.act hrunning (a := .serve _) rfl
  served h := h
  read h := h.act hrunning (a := .read _) rfl
  flush h := h.act hrunning (a := .flush) rfl
  poll h := h.poll hrunning
  fire h := h.fire hrunning
  update h := h.act hrunning (a := .updateInterests) rfl

/-- **While the service runs, a whole turn of the loop is a run of steps**, and no timer is left over. -/
theorem goes_through_turn {x : Course σ} (hrunning : x.service.running) (hdue : x.due = []) :
    x.Goes x.reactor.turn [] := by
  refine (handsOn_goes_due hrunning).turn ⟨rfl, x.opens, ?_⟩
  obtain ⟨reactor, due, opens, told, made⟩ := x
  obtain rfl : due = [] := hdue
  exact .refl

end Course

end NetReactor
