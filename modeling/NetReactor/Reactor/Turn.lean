import NetReactor.Reactor.Serving

/-!
# Turns of the loop

A turn renews the options, waits for readiness no longer than until the next timer, and then works in a
fixed order: the interrupter is reset, commands are carried out, the channels and transports that
showed something are served, output is flushed, timers are fired, and the watch is brought up to date.
The loop takes turns until it is asked to stop, and **then closes everything it opened**.
-/

namespace NetReactor.Reactor

variable {σ : Type} [Host σ]

/-- The longest wait of a turn. -/
def maxWait : Duration := .ofSecs 300

def refreshOptions (r : Reactor σ) : Reactor σ :=
  if r.version = r.service.version then r
  else { r with options := r.service.options, version := r.service.version }

/-! ## Commands -/

def perform (r : Reactor σ) : Command → Reactor σ
  | .openChannel i mask => r.openChannel i mask
  | .closeChannel i => r.closeChannel i
  | .closeTransport id => r.closeTransport id
  | .reopen i id =>
    let r := r.closeTransport id
    match r.channel? i with
    | some c => r.openChannel i c.mask
    | none => r
  | .resolved a => r.resolved a
  | .setRemote i host port => r.setRemote i host port
  | .setLocalPort i port => r.updateChannel i ({ · with localPort := port })

/-- Carries out at most `count` commands, those included that callbacks queue meanwhile. -/
def drainCommands : (count : Nat) → Reactor σ → Reactor σ
  | 0, r => r
  | count + 1, r =>
    match r.service.commands with
    | [] => r
    | c :: rest => drainCommands count ({ r with service := { r.service with commands := rest } }.perform c)

/-- More commands than one turn ever meets. -/
def commandsPerTurn : Nat := 1000000

/-! ## Timers -/

/-- Does what a fired timer is for. -/
def fire (r : Reactor σ) (e : Timer.Expired Task) : Reactor σ :=
  match e.payload with
  | .connectTimeout i =>
    match r.takeTimer i e.handle with
    | (true, r) =>
      if (r.channel? i).any (·.state = .opening) then r.openFailed i Status.connectTimeout else r
    | (false, r) => r
  | .reconnect i =>
    match r.takeTimer i e.handle with
    | (true, r) =>
      match r.channel? i with
      | some c => if c.state = .closed then r.openChannel i c.mask else r
      | none => r
    | (false, r) => r
  | .user timer =>
    let (s, w) := r.service.runScript (Application.onTimer timer e.cancelled r.world)
    { r with service := s, world := w }

/-- Fires every timer that is due. -/
def fireTimers (r : Reactor σ) : Reactor σ :=
  let (now, r) := r.now
  let (due, q) := r.service.timers.pollExpired now
  due.foldl fire { r with service := { r.service with timers := q } }

/-! ## A turn -/

/-- Resets the interrupter if the wait reported it. -/
def resetInterrupter (r : Reactor σ) (ready : List (Readiness Owner)) : Reactor σ :=
  if ready.any (·.token = .interrupter) then
    { r with service := { r.service with interrupter := r.service.interrupter.reset.2 } }
  else r

/-- Serves what a reported descriptor belongs to, if that is a channel. -/
def serveIfChannel (r : Reactor σ) (x : Readiness Owner) : Reactor σ :=
  match x.token with
  | .channel i => r.serveChannel i
  | _ => r

/-- Reads what a reported descriptor belongs to, if that is a transport with input or trouble. -/
def readIfTransport (r : Reactor σ) (x : Readiness Owner) : Reactor σ :=
  match x.token with
  | .transport id => if x.readable || x.error then r.readTransport id else r
  | _ => r

/-- The work of a turn, given what the wait reported. -/
def iterate (r : Reactor σ) (ready : List (Readiness Owner)) : Reactor σ :=
  let r := (r.resetInterrupter ready).drainCommands commandsPerTurn
  let r := ready.foldl serveIfChannel r
  let r := ready.foldl readIfTransport r
  r.flushTransports.fireTimers.updateInterests

/-- How long the turn may wait. -/
def waitTimeout (r : Reactor σ) : Duration × Reactor σ :=
  let (now, r) := r.now
  let (d, q) := r.service.timers.waitTimeout now maxWait
  (d, { r with service := { r.service with timers := q } })

/-- Waits for readiness. A pending interrupt ends the wait at once. -/
def await (r : Reactor σ) (d : Duration) : List (Readiness Owner) × Reactor σ :=
  let sockets := r.watch.filter (·.token ≠ .interrupter)
  let asked := sockets.map fun x => (x.descriptor, x.interest.bits)
  let pending := r.service.interrupter.pending
  let (shown, w) := Host.wait asked (if pending then 0 else d.waitMillis) r.world
  let bits (d : Descriptor) (asked : PollBits) : PollBits :=
    if d = wakeDescriptor then r.service.interrupter.bits &&& asked
    else (shown.lookup d).getD 0
  (r.watch.ready bits, { r with world := w })

def turn (r : Reactor σ) : Reactor σ :=
  let (d, r) := r.refreshOptions.waitTimeout
  let (ready, r) := r.await d
  r.iterate ready

/-! ## The end -/

/-- Closes every transport and channel, and drops timers and commands. -/
def teardown (r : Reactor σ) : Reactor σ :=
  let r := r.transports.ids.foldl (fun r id => r.loseTransport id Status.closedHere) r
  let r := (List.range r.channels.length).foldl shutdownChannel r
  let s := { r.service with timers := r.service.timers.clear, commands := [], running := false }
  { r with service := s }.unwatch wakeDescriptor

/-- Takes turns until it is asked to stop, but at most so many; tells whether it stopped. -/
def run : (turns : Nat) → Reactor σ → Bool × Reactor σ
  | 0, r => (false, r)
  | turns + 1, r => if r.service.stopping then (true, r.teardown) else run turns r.turn

end NetReactor.Reactor
