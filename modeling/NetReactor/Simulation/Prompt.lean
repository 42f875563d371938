import NetReactor.Host

/-!
# A host that answers at once

Every connect is done at once and every send is taken whole; **what the sockets receive is listed
beforehand**, and then nothing waits. No name is looked up, no server can be bound, and callbacks do nothing.
-/

namespace NetReactor.Simulation

structure Prompt where
  /-- The next socket's descriptor. -/
  next : Descriptor
  /-- What the next receives yield, in order. -/
  arrivals : List Bytes

namespace Prompt

def connect (w : Prompt) : Descriptor × Prompt := (w.next, { w with next := w.next + 1 })

def receive (w : Prompt) : Except IoError Bytes × Prompt :=
  match w.arrivals with
  | [] => (.error (.os OsError.wouldBlock), w)
  | data :: rest => (.ok data, { w with arrivals := rest })

end Prompt

instance : Host Prompt where
  receive _ _ w := w.receive
  send _ data w := (.ok data.length, w)
  shutdown _ w := w
  onEvent _ _ w := .done w
  onTimer _ _ w := .done w
  now w := (⟨0⟩, w)
  connect _ _ _ w := (.ok (w.connect.1, true), w.connect.2)
  connectError _ w := (none, w)
  bindServer _ _ w := (.error (.os OsError.addressInUse), w)
  accept _ w := (.ok none, w)
  receiveFrom _ _ w := (.error (.os OsError.wouldBlock), w)
  bindPeer _ _ w := (.error (.os OsError.addressInUse), w)
  localAddress _ _ := none
  peerAddress _ _ := none
  keepAlive _ _ w := w
  close _ w := w
  lookUp _ w := (false, w)
  wait _ _ w := ([], w)

end NetReactor.Simulation
