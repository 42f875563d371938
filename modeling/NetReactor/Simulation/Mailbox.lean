import NetReactor.Host

/-!
# A host whose servers get letters

Every server is bound and every peer's socket made, each on a descriptor of its own; **the letters that come to
servers are listed beforehand**, each with its sender. Nothing comes on other sockets, no connection is made, no
name is looked up, and callbacks do nothing.
-/

namespace NetReactor.Simulation

structure Mailbox where
  /-- The next socket's descriptor. -/
  next : Descriptor
  /-- What comes to servers, in order. -/
  letters : List (Bytes × SocketAddress)

namespace Mailbox

/-- Where every socket is bound. -/
def home : SocketAddress := ⟨.v4 10 0 0 1, 7, 0⟩

/-- Who writes. -/
def stranger : SocketAddress := ⟨.v4 10 0 0 2, 9, 0⟩

def grant (w : Mailbox) : Except IoError Descriptor × Mailbox := (.ok w.next, { w with next := w.next + 1 })

def receive (w : Mailbox) : Except IoError (Bytes × SocketAddress) × Mailbox :=
  match w.letters with
  | [] => (.error (.os OsError.wouldBlock), w)
  | letter :: rest => (.ok letter, { w with letters := rest })

end Mailbox

instance : Host Mailbox where
  receive _ _ w := (.error (.os OsError.wouldBlock), w)
  send _ data w := (.ok data.length, w)
  shutdown _ w := w
  onEvent _ _ w := .done w
  onTimer _ _ w := .done w
  now w := (⟨0⟩, w)
  connect _ _ _ w := (.error (.os OsError.addressInUse), w)
  connectError _ w := (none, w)
  bindServer _ _ w := w.grant
  accept _ w := (.ok none, w)
  receiveFrom _ _ w := w.receive
  bindPeer _ _ w := w.grant
  localAddress _ _ := some Mailbox.home
  peerAddress _ _ := none
  keepAlive _ _ w := w
  close _ w := w
  lookUp _ w := (false, w)
  wait _ _ w := ([], w)

end NetReactor.Simulation
