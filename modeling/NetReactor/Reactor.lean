import NetReactor.Arena
import NetReactor.Host
import NetReactor.Transport
import NetReactor.Watch

/-!
# The reactor

What one run of the loop owns beside the shared service: the channels, the transports, the watch, and
a copy of the options, renewed at the start of each turn. Handlers take the reactor and give back the
reactor; an index or identifier that names nothing changes nothing.

**An event goes to the queue or to the callback**, as the loop's copy of the options says; without a
callback it is dropped.
-/

namespace NetReactor

/-- Whom a watched descriptor belongs to. -/
inductive Owner
  | interrupter
  | channel (index : Nat)
  | transport (id : TransportId)
deriving DecidableEq, Repr

structure Reactor (σ : Type) where
  service : Service
  world : σ
  /-- The options as of the start of the turn, and their version. -/
  options : Options
  version : Nat
  channels : List Channel
  transports : Arena Transport
  watch : Watch Owner
  /-- Every lookup that was started, the latest first. -/
  lookups : List Lookup

namespace Reactor

variable {σ : Type} [Host σ]

/-- The interrupter's descriptor. -/
def wakeDescriptor : Descriptor := 0

/-- A loop with one closed channel for each endpoint; the service is to have been started. -/
def new (s : Service) (w : σ) (endpoints : List Endpoint) : Reactor σ where
  service := s
  world := w
  options := s.options
  version := s.version
  channels := endpoints.map .ofEndpoint
  transports := .empty
  watch := [⟨wakeDescriptor, .interrupter, .read⟩]
  lookups := []

/-! ## Access -/

def now (r : Reactor σ) : Instant × Reactor σ :=
  let (t, w) := Host.now r.world
  (t, { r with world := w })

def channel? (r : Reactor σ) (i : Nat) : Option Channel := r.channels[i]?

def updateChannel (r : Reactor σ) (i : Nat) (f : Channel → Channel) : Reactor σ :=
  { r with channels := r.channels.modify i f }

/-- Sets a channel's state, in the table for other threads too. -/
def setState (r : Reactor σ) (i : Nat) (state : ChannelState) : Reactor σ :=
  { r with
    channels := r.channels.modify i ({ · with state := state })
    service := { r.service with states := r.service.states.set i state } }

def watchFor (r : Reactor σ) (d : Descriptor) (owner : Owner) (i : Interest) : Reactor σ :=
  { r with watch := r.watch.register d owner i }

def unwatch (r : Reactor σ) (d : Descriptor) : Reactor σ := { r with watch := r.watch.deregister d }

def closeSocket (r : Reactor σ) (d : Descriptor) : Reactor σ :=
  { r with world := Host.close d r.world }

def shutdownSocket (r : Reactor σ) (d : Descriptor) : Reactor σ :=
  { r with world := Sockets.shutdown d r.world }

/-! ## Events -/

/-- An event, beside how its connection stands now. -/
def emission (r : Reactor σ) (e : Event) : Emission where
  event := e
  held := e.handle?.any (r.transports.contains ·.id)
  isOpen := e.handle?.any r.service.isLive

/-- Records an event. -/
def record (r : Reactor σ) (e : Event) : Reactor σ :=
  { r with service := { r.service with emitted := r.service.emitted.push (r.emission e) } }

/-- Queues an event, or hands it to the callback. -/
def emit (r : Reactor σ) (e : Event) : Reactor σ :=
  let r := r.record e
  if r.options.deferEvents then
    { r with service := { r.service with events := EventQueue.push r.service.events e } }
  else
    match r.service.callback with
    | some callback =>
      let (s, w) := r.service.deliver callback e r.world
      { r with service := s, world := w }
    | none => r

def emitAll (r : Reactor σ) (events : List Event) : Reactor σ := events.foldl emit r

/-! ## A channel's timer -/

/-- Drops a channel's timer, if it has one. -/
def dropTimer (r : Reactor σ) (i : Nat) : Reactor σ :=
  match (r.channel? i).bind (·.timer) with
  | some h =>
    let (_, s) := r.service.removeTimer h
    { r with service := s }.updateChannel i ({ · with timer := none })
  | none => r

/-- Gives a channel a timer, in place of the one it had. -/
def armTimer (r : Reactor σ) (i : Nat) (delay : Duration) (task : Task) : Reactor σ :=
  let (now, r) := (r.dropTimer i).now
  let (h, s) := r.service.addTimer now delay false task
  { r with service := s }.updateChannel i ({ · with timer := some h })

/-- Plans the next try of a client, if the options have a delay for it. -/
def scheduleReconnect (r : Reactor σ) (i : Nat) : Reactor σ :=
  match r.options.reconnectTimeout with
  | some delay => r.armTimer i delay (.reconnect i)
  | none => r

/-- Empties a channel's timer slot if it still holds the timer; tells whether it did. -/
def takeTimer (r : Reactor σ) (i : Nat) (h : Timer.Handle) : Bool × Reactor σ :=
  if (r.channel? i).bind (·.timer) = some h then
    (true, r.updateChannel i ({ · with timer := none }))
  else (false, r)

end Reactor

end NetReactor
