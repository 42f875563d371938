import NetReactor.Channel
import NetReactor.Connection
import NetReactor.Event
import NetReactor.Interrupter
import NetReactor.Options.Change
import NetReactor.Service.Command
import NetReactor.Timer.Queue

/-!
# The service

What the application's threads and the loop share: the options with the number of changes made to
them, the command queue, the events that wait to be dispatched, the timers, the channels' states and
the connections. **Nothing here fails**: what makes no sense is ignored, and outcomes arrive as events.
Whatever is published for the loop is followed by an interrupt, so that the loop does not sleep over
it.

`emitted` and `delivered` hold every event the loop produced, and every event a callback received;
`timerCalls` holds every call the application made on its timers, the latest first.
-/

namespace NetReactor

structure Service where
  options : Options
  /-- How often the options were changed. -/
  version : Nat
  /-- The event callback, by number. -/
  callback : Option Nat
  commands : List Command
  events : EventQueue
  interrupter : Interrupter
  timers : Timer.Queue Task
  /-- The handle of the next timer. -/
  nextTimer : Timer.Handle
  running : Bool
  /-- Whether the loop was asked to stop. -/
  stopping : Bool
  states : List ChannelState
  connections : Array Connection
  emitted : Array Emission
  delivered : Array (Nat × Event)
  timerCalls : List Timer.Call

namespace Service

/-- A service that was never started. -/
def ofOptions (o : Options) : Service where
  options := o
  version := 0
  callback := none
  commands := []
  events := []
  interrupter := .new
  timers := .empty
  nextTimer := 0
  running := false
  stopping := false
  states := []
  connections := #[]
  emitted := #[]
  delivered := #[]
  timerCalls := []

instance : Inhabited Service := ⟨ofOptions default⟩

def wake (s : Service) : Service := { s with interrupter := s.interrupter.interrupt }

/-- Queues a command and wakes the loop. -/
def post (s : Service) (c : Command) : Service := { s with commands := s.commands ++ [c] }.wake

/-! ## Channels -/

def openChannel (s : Service) (channel : Nat) (mask : ChannelMask) : Service :=
  if s.running then s.post (.openChannel channel mask) else s

def closeChannel (s : Service) (channel : Nat) : Service :=
  if s.running then s.post (.closeChannel channel) else s

/-- Whether a channel is connected, or serving. -/
def isOpen (s : Service) (channel : Nat) : Bool := s.states[channel]? = some .opened

/-! ## Connections -/

/-- The connection a handle stands for. -/
def connection? (s : Service) (h : Handle) : Option Connection := s.connections[h.serial]?

def isLive (s : Service) (h : Handle) : Bool := (s.connection? h).any (·.isOpen)

def updateConnection (s : Service) (h : Handle) (f : Connection → Connection) : Service :=
  { s with connections := s.connections.modify h.serial f }

/-- Asks for a connection to be closed; nothing if it is closed. -/
def closeTransport (s : Service) (h : Handle) : Service :=
  if s.isLive h then s.post (.closeTransport h.id) else s

/-- Asks for a connection to be closed if it is open, and for its channel to be opened again. -/
def reopen (s : Service) (h : Handle) : Service :=
  if s.running then s.post (.reopen h.channel h.id) else s

/-- Queues a message, to expire after the send timeout in force; dropped if the connection is
closed. -/
def write (s : Service) (now : Instant) (h : Handle) (data : Bytes) : Service :=
  if s.isLive h then
    (s.updateConnection h (·.enqueue (.new data (s.options.sendDeadline now)))).wake
  else s

/-! ## Timers -/

/-- Adds a timer without waking the loop. -/
def addTimer (s : Service) (now : Instant) (delay : Duration) (again : Bool) (task : Task) :
    Timer.Handle × Service :=
  (s.nextTimer, { s with
    timers := s.timers.insert s.nextTimer (.after now delay again task)
    nextTimer := s.nextTimer + 1 })

def schedule (s : Service) (now : Instant) (delay : Duration) (again : Bool) (task : Task) :
    Timer.Handle × Service :=
  let (h, s) := s.addTimer now delay again task
  (h, s.wake)

/-- Makes a timer fire at once for the last time; `false` if there is none. -/
def cancelTimer (s : Service) (now : Instant) (h : Timer.Handle) : Bool × Service :=
  match s.timers.cancel now h with
  | (true, q) => (true, { s with timers := q }.wake)
  | (false, _) => (false, s)

/-- Drops a timer; `false` if there is none. -/
def removeTimer (s : Service) (h : Timer.Handle) : Bool × Service :=
  let (task, q) := s.timers.remove h
  (task.isSome, { s with timers := q })

/-! ## Options -/

/-- Makes a change: the service-wide ones at once, a channel's by command. -/
def setOption (s : Service) (c : Change) : Service :=
  match c with
  | .eventCallback n => { s with callback := some n }
  | .localPort channel port => s.post (.setLocalPort channel port)
  | .remoteHost channel host => s.post (.setRemote channel (some host) none)
  | .remotePort channel port => s.post (.setRemote channel none (some port))
  | .remoteEndpoint channel host port => s.post (.setRemote channel (some host) (some port))
  | c =>
    match c.revise? s.options with
    | some o => { s with options := o, version := s.version + 1 }.wake
    | none => s

/-! ## Start and stop -/

/-- Takes the service over for a loop with so many channels; nothing if it is running. -/
def start (s : Service) (callback : Nat) (channels : Nat) : Service :=
  if s.running then s
  else { s with
    running := true
    stopping := false
    callback := some callback
    states := List.replicate channels .closed }

/-- Asks the loop to stop. -/
def stop (s : Service) : Service := if s.running then { s with stopping := true }.wake else s

def text (s : Service) : String :=
  Text.record "IoService" [
    ("running", Text.flag s.running), ("pending_events", toString s.events.length)]

end Service

end NetReactor
