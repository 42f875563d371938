import NetReactor.Simulation.Frugal

/-!
# A host through which octets trickle

Descriptors are as few as ever, but **what is received comes in pieces and what is sent goes in bites**: the
pieces are listed beforehand, each with the socket it comes on, and a send takes so many octets at most. Some
callers wait at whatever socket is listened on. Every connect is refused, no name is looked up, and callbacks do
nothing.
-/

namespace NetReactor.Simulation

structure Trickle where
  table : Frugal
  /-- How many callers wait. -/
  callers : Nat
  /-- The pieces that come, in order. -/
  pieces : List (Descriptor × Bytes)
  /-- How much a send takes. -/
  bite : Nat

namespace Trickle

def grantWith {α : Type} (give : Descriptor → α) (w : Trickle) : Except IoError α × Trickle :=
  let (answer, table) := w.table.grantWith give
  (answer, { w with table := table })

/-- Brings the next piece, if it comes on this socket and there is room for it. -/
def receive (d : Descriptor) (limit : Nat) (w : Trickle) : Except IoError Bytes × Trickle :=
  match w.pieces with
  | [] => (.error (.os OsError.wouldBlock), w)
  | (e, piece) :: rest =>
    if e = d ∧ piece.length ≤ limit then (.ok piece, { w with pieces := rest })
    else (.error (.os OsError.wouldBlock), w)

def accept (w : Trickle) : Except IoError (Option (Descriptor × SocketAddress)) × Trickle :=
  match w.callers with
  | 0 => (.ok none, w)
  | callers + 1 => { w with callers := callers }.grantWith fun d => some (d, Frugal.peer)

end Trickle

instance : Host Trickle where
  receive d limit w := w.receive d limit
  send _ data w := (.ok (min w.bite data.length), w)
  shutdown _ w := w
  onEvent _ _ w := .done w
  onTimer _ _ w := .done w
  now w := (⟨0⟩, w)
  connect _ _ _ w := (.error (.os OsError.addressInUse), w)
  connectError _ w := (none, w)
  bindServer _ _ w := w.grantWith id
  accept _ w := w.accept
  receiveFrom _ _ w := (.error (.os OsError.wouldBlock), w)
  bindPeer _ _ w := (.error (.os OsError.addressInUse), w)
  localAddress _ _ := none
  peerAddress _ _ := some Frugal.peer
  keepAlive _ _ w := w
  close d w := { w with table := w.table.close d }
  lookUp _ w := (false, w)
  wait _ _ w := ([], w)

end NetReactor.Simulation
