import NetReactor.Reactor.Turn
import NetReactor.Simulation.Isolated

/-!
# Scenarios

A service on an isolated host, driven move by move, and what is seen of it after each: the answer to
the move, the events and timer calls it led to. Time is simulated. **After a move the loop runs until
nothing is left to do at once**; a move that waits for something lets the time pass until it is there,
timer by timer, and gives up after a second.

A busy loop does not stop the clock: every hundred turns cost a millisecond.
-/

namespace NetReactor.Simulation

/-! ## Letting the loop run -/

namespace Run

/-- Posts the answers of the lookups that have ended. -/
def collect (r : Reactor Isolated) : Reactor Isolated :=
  let (ended, w) := r.world.collect
  { r with world := w, service := ended.foldl (fun s a => s.post (.resolved a)) r.service }

def setClock (r : Reactor Isolated) (t : Instant) : Reactor Isolated :=
  { r with world := r.world.setClock t }

/-- The earliest timer, if the loop runs. -/
def deadline? (r : Reactor Isolated) : Option Instant :=
  if r.service.running then r.service.timers.nextDeadline.1 else none

/-- Whether the loop has something to do at once. -/
def isBusy (r : Reactor Isolated) : Bool :=
  r.service.running &&
    (r.service.stopping || r.service.interrupter.pending || (deadline? r).any (· ≤ r.world.clock))

/-- One turn, or the end of the loop. -/
def turn (r : Reactor Isolated) : Reactor Isolated :=
  if r.service.stopping then r.teardown else r.turn

/-- How many turns a millisecond takes. -/
def turnsPerMilli : Nat := 100

/-- Runs until the loop is quiet and has seen `enough`, or until `time`. -/
def advance (time : Instant) (enough : Reactor Isolated → Bool) :
    (turns : Nat) → Reactor Isolated → Reactor Isolated
  | 0, r => setClock r time
  | turns + 1, r =>
    let r := collect r
    if isBusy r then
      let r := turn r
      let late := turns % turnsPerMilli = 0
      advance time enough turns (if late then setClock r (r.world.clock.add (.ofMillis 1)) else r)
    else if enough r then r
    else
      match (deadline? r).filter (· ≤ time) with
      | some t => advance time enough turns (setClock r t)
      | none => setClock r time

/-- Runs for at most `d`, or until the loop is quiet and has seen `enough`. -/
def wait (d : Duration) (enough : Reactor Isolated → Bool) (r : Reactor Isolated) :
    Reactor Isolated :=
  advance (r.world.clock.add d) enough ((d.millis + 2) * turnsPerMilli) r

/-- Runs until the loop is quiet. -/
def settle (r : Reactor Isolated) : Reactor Isolated := wait .zero (fun _ => true) r

end Run

/-! ## Moves -/

/-- One thing done to the service or beside it. Transports, timers and sockets go by name. -/
inductive Step
  | start (endpoints : List Endpoint) (callback : Nat)
  | stop
  | stopFromLoop
  | waitService
  | openChannel (channel : Nat) (mask : ChannelMask)
  | closeChannel (channel : Nat)
  | closeTransport (name : String)
  | reopen (name : String)
  | write (name : String) (data : Thunk Bytes)
  | handle (name : String)
  | isOpen (channel : Nat) (wanted : Option Bool)
  | isRunning
  | eventCount
  | describe
  | dispatch (max : Nat)
  | options
  | setOption (c : Change)
  | setResolver (table : Option Table)
  | schedule (name : String) (delay : Duration) (again : Bool) (limit : Option Nat)
  | cancelTimer (name : String)
  | removeTimer (name : String)
  | sleep (d : Duration)
  | release (gate : String)
  | resolverCalls
  | peerConnect
  | peerListen (name : String) (port : UInt16)
  | peerAccept (listener : String)
  /-- Anything done with a connection made from outside. -/
  | peerTraffic
  | udpBind (name : String) (port : UInt16)
  | udpSend (name : String)
  | udpDrain (name : String)
  | drop (name : String)

/-- What a step answers. -/
inductive Answer
  | nothing
  | flag (b : Bool)
  | count (n : Nat)
  | text (s : String)
  | options (o : Options)
  | connection (c : Connection)
  | refused (code : Int)
  | names (l : List String)

structure Scenario where
  reactor : Reactor Isolated
  listeners : List (String × Descriptor)
  messengers : List (String × Descriptor)
  timers : List (String × Timer.Handle)
  /-- The connections seen in delivered events, in order. -/
  seen : List Handle

namespace Scenario

def new (o : Options) : Scenario := ⟨.new (.ofOptions o) .new [], [], [], [], []⟩

def world (s : Scenario) : Isolated := s.reactor.world

def service (s : Scenario) : Service := s.reactor.service

def setWorld (s : Scenario) (w : Isolated) : Scenario := { s with reactor := { s.reactor with world := w } }

def setService (s : Scenario) (x : Service) : Scenario :=
  { s with reactor := { s.reactor with service := x } }

/-! ## Names of connections -/

/-- A connection's place among those of its channel. -/
def rank (s : Scenario) (h : Handle) : Nat :=
  ((s.seen.filter (·.channel = h.channel)).map (·.serial)).idxOf h.serial

def nameOf (s : Scenario) (h : Handle) : String := toString h.channel ++ "." ++ toString (s.rank h)

def handle? (s : Scenario) (name : String) : Option Handle := s.seen.find? (s.nameOf · = name)

/-- Takes note of a connection seen for the first time. -/
def note (s : Scenario) (h : Handle) : Scenario :=
  if s.seen.any (·.serial = h.serial) then s else { s with seen := s.seen ++ [h] }

/-! ## Single steps -/

/-- The longest a step waits for something. -/
def patience : Duration := .ofMillis 1000

/-- Carries a request out at the present time. -/
def perform (s : Scenario) (r : Request) : Reply × Scenario :=
  let (reply, x) := s.service.perform s.world.clock r
  (reply, s.setService x)

/-- Carries out what is asked of a connection by name. -/
def onHandle (s : Scenario) (name : String) (r : Handle → Request) : Answer × Scenario :=
  match s.handle? name with
  | some h => (.nothing, (s.perform (r h)).2)
  | none => (.text "no such transport", s)

/-- Carries out what is asked of a timer by name. -/
def onTimer (s : Scenario) (name : String) (r : Timer.Handle → Request) : Answer × Scenario :=
  match s.timers.lookup name with
  | none => (.flag false, s)
  | some h =>
    match s.perform (r h) with
    | (.found b, s) => (.flag b, s)
    | (_, s) => (.nothing, s)

/-- Starts the loop, unless it runs. -/
def startLoop (s : Scenario) (endpoints : List Endpoint) (callback : Nat) : Scenario :=
  if s.service.running then s
  else
    let x := s.service.start callback endpoints.length
    { s with reactor := .new x s.world endpoints }

/-- Stops the loop: it ends its wait, and then everything. -/
def stopLoop (s : Scenario) : Scenario :=
  if s.service.running then
    let r := { s.reactor with service := s.service.stop }
    { s with reactor := r.turn.teardown }
  else s

/-- Starts a timer whose callback does what `use` says. -/
def addTimer (s : Scenario) (use : TimerUse) (delay : Duration) (again : Bool) :
    Timer.Handle × Scenario :=
  let (number, w) := s.world.addTimer use
  match (s.setWorld w).perform (.schedule delay again number) with
  | (.timer h, s) => (h, s)
  | (_, s) => (0, s)

/-- Binds a socket on this host's own address. -/
def bindHere (s : Scenario) (stream shared : Bool) (port : UInt16) :
    Except IoError Descriptor × Scenario :=
  let (d, w) := s.world.bind stream shared (.ofHost .localhost port)
  (d, s.setWorld w)

/-- Takes one step. The error is the reason why a step makes no sense. -/
def take (s : Scenario) : Step → Except String (Answer × Scenario)
  | .start endpoints callback => .ok (.nothing, s.startLoop endpoints callback)
  | .stop => .ok (.nothing, s.stopLoop)
  | .stopFromLoop => .ok (.nothing, (s.addTimer .stopping .zero false).2)
  | .waitService => .ok (.nothing, s)
  | .openChannel channel mask => .ok (.nothing, (s.perform (.openChannel channel mask)).2)
  | .closeChannel channel => .ok (.nothing, (s.perform (.closeChannel channel)).2)
  | .closeTransport name => .ok (s.onHandle name .closeTransport)
  | .reopen name => .ok (s.onHandle name .reopen)
  | .write name data => .ok (s.onHandle name (.write · data.get))
  | .handle name =>
    match (s.handle? name).bind s.service.connection? with
    | some c => .ok (.connection c, s)
    | none => .ok (.text "no such transport", s)
  | .isOpen channel none => .ok (.flag (s.service.isOpen channel), s)
  | .isOpen channel (some wanted) =>
    let r := Run.wait patience (·.service.isOpen channel = wanted) s.reactor
    .ok (.flag (r.service.isOpen channel), { s with reactor := r })
  | .isRunning => .ok (.flag s.service.running, s)
  | .eventCount => .ok (.count s.service.events.length, s)
  | .describe => .ok (.text s.service.text, s)
  | .dispatch max =>
    let (n, x, w) := s.service.dispatch max s.world
    .ok (.count n, (s.setService x).setWorld w)
  | .options => .ok (.options s.service.options, s)
  | .setOption c => .ok (.nothing, (s.perform (.setOption c)).2)
  | .setResolver none => .ok (.nothing, (s.perform (.setOption (.resolver none))).2)
  | .setResolver (some table) =>
    let w := s.world
    let s := s.setWorld { w with tables := w.tables ++ [table] }
    .ok (.nothing, (s.perform (.setOption (.resolver (some w.tables.length)))).2)
  | .schedule name delay again limit =>
    if (s.world.clock.add? delay).isNone then .error Instant.overflow
    else
    let (h, s) := s.addTimer (.recorded name limit) delay again
    .ok (.nothing, { s with timers := (name, h) :: s.timers })
  | .cancelTimer name => .ok (s.onTimer name .cancelTimer)
  | .removeTimer name => .ok (s.onTimer name .removeTimer)
  | .sleep d => .ok (.nothing, { s with reactor := Run.wait d (fun _ => false) s.reactor })
  | .release gate =>
    let w := s.world
    .ok (.nothing, s.setWorld { w with gates := gate :: w.gates })
  | .resolverCalls =>
    let w := s.world
    let names := w.asked.map fun (host, port) => host ++ ":" ++ toString port.toNat
    .ok (.names (names.mergeSort (· ≤ ·)), s.setWorld { w with asked := [] })
  | .peerConnect => .ok (.refused OsError.networkUnreachable, s)
  | .peerListen name port =>
    match s.bindHere true true port with
    | (.ok d, s) => .ok (.nothing, { s with listeners := (name, d) :: s.listeners })
    | (.error e, s) => .ok (.refused e.status, s)
  | .peerAccept listener =>
    if (s.listeners.lookup listener).isNone then .error "no listener"
    else
      let r := Run.wait patience (fun _ => false) s.reactor
      .ok (.text "nothing to accept", { s with reactor := r })
  | .peerTraffic => .error "no peer"
  | .udpBind name port =>
    match s.bindHere false false port with
    | (.ok d, s) => .ok (.nothing, { s with messengers := (name, d) :: s.messengers })
    | (.error e, s) => .ok (.refused e.status, s)
  | .udpSend name =>
    if (s.messengers.lookup name).isNone then .error "no socket"
    else .ok (.refused OsError.networkUnreachable, s)
  | .udpDrain name =>
    if (s.messengers.lookup name).isNone then .error "no socket" else .ok (.names [], s)
  | .drop name =>
    let here := (s.listeners ++ s.messengers).filter (·.1 = name)
    let w := here.foldl (fun w x => w.close x.2) s.world
    .ok (.nothing, { s with
      listeners := s.listeners.filter (·.1 ≠ name)
      messengers := s.messengers.filter (·.1 ≠ name) }.setWorld w)

/-- Takes steps while the loop is held; only a sleep lets time pass. -/
def takeHeld (s : Scenario) : List Step → Except String (List Answer × Scenario)
  | [] => .ok ([], s)
  | step :: rest => do
    let s := s.setWorld (s.world.setClock (s.world.clock.add (.ofNanos 1000)))
    let (answer, s) ← match step with
      | .sleep d => .ok (.nothing, s.setWorld (s.world.setClock (s.world.clock.add d)))
      | .isOpen channel _ => s.take (.isOpen channel none)
      | step => s.take step
    let (answers, s) ← s.takeHeld rest
    return (answer :: answers, s)

/-! ## Moves and what is seen of them -/

/-- What one move led to. -/
structure Report where
  /-- The number of events produced and timer calls recorded. -/
  produced : Nat
  /-- The delivered events with their callback, by channel and connection. -/
  events : List (Nat × Event)
  calls : List (String × Bool)

def produced (r : Reactor Isolated) : Nat := r.service.emitted.size + r.world.calls.size

/-- Where an event stands in a report: by channel, then by connection, none first. -/
def place (s : Scenario) (e : Event) : Nat × Nat :=
  (e.channel, match e.handle? with
    | some h => s.rank h + 1
    | none => 0)

/-- What happened since `before`. -/
def report (before s : Scenario) : Report × Scenario :=
  let news := s.service.delivered.toList.drop before.service.delivered.size
  let s := (news.filterMap (·.2.handle?)).foldl note s
  let earlier (a b : Nat × Nat) : Bool := a.1 < b.1 || a.1 = b.1 && a.2 ≤ b.2
  let calls := s.world.calls.toList.drop before.world.calls.size
  ({ produced := produced s.reactor - produced before.reactor
     events := news.mergeSort fun a b => earlier (s.place a.2) (s.place b.2)
     calls := calls.map fun (timer, cancelled) => (s.world.nameOf timer, cancelled) }, s)

/-- Lets the loop run until so many events were produced since `before`, and until it is quiet. -/
def settle (before : Scenario) (expected : Nat) (s : Scenario) : Scenario :=
  let enough (r : Reactor Isolated) : Bool := expected ≤ produced r - produced before.reactor
  { s with reactor := if expected = 0 then Run.settle s.reactor else Run.wait patience enough s.reactor }

/-- Takes one step and lets the loop run. -/
def move (s : Scenario) (step : Step) (expected : Nat) : Except String (Answer × Report × Scenario) := do
  let before := s
  let s := s.setWorld (s.world.setClock (s.world.clock.add (.ofNanos 1000)))
  let (answer, s) ← s.take step
  let (seen, s) := report before (settle before expected s)
  return (answer, seen, s)

/-- Takes steps while the loop is held, and then lets it run. -/
def moveAll (s : Scenario) (steps : List Step) (expected : Nat) :
    Except String (List Answer × Report × Scenario) := do
  let (answers, after) ← s.takeHeld steps
  let (seen, after) := report s (settle s expected after)
  return (answers, seen, after)

/-- Stops the service, if it still runs. -/
def finish (s : Scenario) : Report × Scenario := report s s.stopLoop

end Scenario

end NetReactor.Simulation
