import NetReactor.Host

/-!
# A host without a network

Sockets can be bound and names can be looked up in tables, but **no address can be reached**: every
connect fails at once, and no connection and no message ever arrives. Bound sockets conflict by port:
two of a stream when their addresses overlap, two for messages unless both share. The clock stands
still unless it is set, and a lookup ends only when it is collected, not before its gate is open.
-/

namespace NetReactor.Simulation

/-- A socket with an address. -/
structure BoundSocket where
  descriptor : Descriptor
  stream : Bool
  address : SocketAddress
  /-- Whether it lets another message socket share its port. -/
  shared : Bool
deriving Repr

/-- What a table says of a name: addresses, each with a port or on the port asked for, or an error;
and the gate that holds the answer back. -/
structure TableEntry where
  answer : Except IoError (List (Address × Option UInt16))
  gate : Option String

abbrev Table := List (String × TableEntry)

/-- What becomes of a call of one of the application's timers. -/
inductive TimerUse
  /-- The call is recorded, up to a limit unless it is the last. -/
  | recorded (name : String) (limit : Option Nat)
  /-- The call stops the service. -/
  | stopping
deriving Repr

structure Isolated where
  clock : Instant
  /-- The next socket's descriptor. -/
  next : Descriptor
  sockets : List BoundSocket
  /-- The resolvers' tables, by number. -/
  tables : List Table
  /-- The gates that are open. -/
  gates : List String
  /-- The lookups under way, oldest first. -/
  lookups : List Lookup
  /-- What was looked up in tables, oldest first. -/
  asked : List (String × UInt16)
  /-- The application's timers, by number. -/
  timers : List TimerUse
  /-- The recorded calls: a timer's number, and whether it was cancelled. -/
  calls : Array (Nat × Bool)

namespace Isolated

/-- The first moment of the clock. -/
def epoch : Instant := ⟨1000000000⟩

def new : Isolated where
  clock := epoch
  next := 1
  sockets := []
  tables := []
  gates := []
  lookups := []
  asked := []
  timers := []
  calls := #[]

instance : Inhabited Isolated := ⟨new⟩

/-- Moves the clock on to `t`; it never goes back. -/
def setClock (w : Isolated) (t : Instant) : Isolated :=
  if w.clock ≤ t then { w with clock := t } else w

/-! ## Sockets -/

/-- Why a host cannot be reached. -/
def unreachable (a : Address) : Int :=
  match a.unmapped with
  | .v4 .. => OsError.networkUnreachable
  | .v6 (g :: _) => if g &&& 0xffc0 = 0xfe80 then OsError.invalidArgument else OsError.addressNotAvailable
  | .v6 [] => OsError.addressNotAvailable

/-- Whether a socket can be bound to a host here. -/
def isBindable (a : Address) : Bool := !a.unmapped.isV6 || a = .anyV6

/-- Whether a socket on the host would receive for every host. -/
def isWildcard (a : Address) : Bool := a = .anyV6 || a.unmapped = .anyV4

/-- Whether two addresses share a port that the system did not choose. -/
def overlaps (a b : SocketAddress) : Bool :=
  a.port = b.port && a.port ≠ 0 &&
    (isWildcard a.host || isWildcard b.host || a.host.unmapped = b.host.unmapped)

/-- Whether a port is taken for a socket of this kind. -/
def isTaken (w : Isolated) (stream shared : Bool) (a : SocketAddress) : Bool :=
  w.sockets.any fun s =>
    s.stream = stream && overlaps s.address a && (stream || !(s.shared && shared))

/-- Binds a socket. -/
def bind (w : Isolated) (stream shared : Bool) (a : SocketAddress) :
    Except IoError Descriptor × Isolated :=
  if !isBindable a.host then (.error (.os (unreachable a.host)), w)
  else if w.isTaken stream shared a then (.error (.os OsError.addressInUse), w)
  else (.ok w.next, { w with
    next := w.next + 1
    sockets := ⟨w.next, stream, a, shared⟩ :: w.sockets })

/-- Fails to connect, at the latest because nothing can be reached. -/
def connect (w : Isolated) (stream : Bool) (localPort : UInt16) (target : SocketAddress) : IoError :=
  let any := if target.host.isV6 then Address.anyV6 else .anyV4
  if localPort ≠ 0 && w.isTaken stream true (.ofHost any localPort) then .os OsError.addressInUse
  else .os (unreachable target.host)

def close (w : Isolated) (d : Descriptor) : Isolated :=
  { w with sockets := w.sockets.filter (·.descriptor ≠ d) }

/-! ## Lookups -/

/-- What the table of a lookup says of its name. -/
def entry? (w : Isolated) (l : Lookup) : Option TableEntry := do
  let table ← w.tables[← l.resolver]?
  table.lookup l.host

/-- Whether the gate of a lookup is open, if it has one. -/
def isReleased (w : Isolated) (l : Lookup) : Bool :=
  match (w.entry? l).bind (·.gate) with
  | some gate => w.gates.contains gate
  | none => true

/-- The answer to a lookup. A name without an entry is not found. -/
def resolve (w : Isolated) (l : Lookup) : Resolution where
  channel := l.channel
  epoch := l.epoch
  answer := match w.entry? l with
    | some e => e.answer.map fun addresses => addresses.map fun (a, port) => .ofHost a (port.getD l.port)
    | none => .error (.kind .notFound)
  time := w.clock

/-- Ends the lookups whose gate is open. -/
def collect (w : Isolated) : List Resolution × Isolated :=
  let (ended, waiting) := w.lookups.partition w.isReleased
  (ended.map w.resolve, { w with lookups := waiting })

def lookUp (w : Isolated) (l : Lookup) : Isolated :=
  let asked := if l.resolver.isSome then w.asked ++ [(l.host, l.port)] else w.asked
  { w with lookups := w.lookups ++ [l], asked := asked }

/-! ## Timers -/

def addTimer (w : Isolated) (use : TimerUse) : Nat × Isolated :=
  (w.timers.length, { w with timers := w.timers ++ [use] })

/-- How many calls of a timer were recorded. -/
def callsOf (w : Isolated) (timer : Nat) : Nat := (w.calls.toList.filter (·.1 = timer)).length

/-- What the callback of a timer does. -/
def onTimer (timer : Nat) (cancelled : Bool) (w : Isolated) : Script Isolated :=
  match w.timers[timer]? with
  | some .stopping => .call w .stop fun _ w => .done w
  | some (.recorded _ limit) =>
    let spent := limit.any fun n => n ≤ w.callsOf timer
    if spent && !cancelled then .done w else .done { w with calls := w.calls.push (timer, cancelled) }
  | none => .done w

def nameOf (w : Isolated) (timer : Nat) : String :=
  match w.timers[timer]? with
  | some (.recorded name _) => name
  | _ => ""

end Isolated

instance : Host Isolated where
  receive _ _ w := (.error (.os OsError.wouldBlock), w)
  send _ _ w := (.error (.os OsError.networkUnreachable), w)
  shutdown _ w := w
  onEvent _ _ w := .done w
  onTimer := Isolated.onTimer
  now w := (w.clock, w)
  connect stream localPort target w := (.error (w.connect stream localPort target), w)
  connectError _ w := (none, w)
  bindServer stream a w := w.bind stream true a
  accept _ w := (.ok none, w)
  receiveFrom _ _ w := (.error (.os OsError.wouldBlock), w)
  bindPeer _ peer w := (.error (.os (Isolated.unreachable peer.host)), w)
  localAddress d w := (w.sockets.find? (·.descriptor = d)).map (·.address)
  peerAddress _ _ := none
  keepAlive _ _ w := w
  close d w := w.close d
  lookUp l w := (true, w.lookUp l)
  wait _ millis w := ([], w.setClock (w.clock.add (.ofMillis millis)))

end NetReactor.Simulation
