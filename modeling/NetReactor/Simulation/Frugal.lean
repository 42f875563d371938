import NetReactor.Host

/-!
# A host with few descriptors

There are eight descriptors, and **only one that is not open is handed out**, the least. Every connect
goes well but is not done at once, and whoever is listened for is there; nothing arrives, and no send is
taken. No name is looked up, and callbacks do nothing.
-/

namespace NetReactor.Simulation

structure Frugal where
  /-- The descriptors that are open. -/
  held : List (Fin 8)
deriving DecidableEq

namespace Frugal

/-- Only the loop's own descriptor is open. -/
def new : Frugal := ⟨[0]⟩

/-- Hands out the least descriptor that is not open. -/
def grant (w : Frugal) : Except IoError Descriptor × Frugal :=
  match (List.finRange 8).find? (· ∉ w.held) with
  | some n => (.ok n.val, ⟨n :: w.held⟩)
  | none => (.error (.os 24), w)

/-- Gives what comes with the descriptor that is handed out. -/
def grantWith {α : Type} (give : Descriptor → α) (w : Frugal) : Except IoError α × Frugal :=
  match w.grant with
  | (.ok d, w) => (.ok (give d), w)
  | (.error e, w) => (.error e, w)

def close (d : Descriptor) (w : Frugal) : Frugal := ⟨w.held.filter fun n => n.val ≠ d⟩

/-- Where every peer is. -/
def peer : SocketAddress := ⟨.v4 10 0 0 1, 80, 0⟩

end Frugal

instance : Host Frugal where
  receive _ _ w := (.error (.os OsError.wouldBlock), w)
  send _ _ w := (.error (.os OsError.wouldBlock), w)
  shutdown _ w := w
  onEvent _ _ w := .done w
  onTimer _ _ w := .done w
  now w := (⟨0⟩, w)
  connect _ _ _ w := w.grantWith fun d => (d, false)
  connectError _ w := (none, w)
  bindServer _ _ w := w.grant
  accept _ w := w.grantWith fun d => some (d, Frugal.peer)
  receiveFrom _ _ w := (.error (.os OsError.wouldBlock), w)
  bindPeer _ _ w := w.grant
  localAddress _ _ := none
  peerAddress _ _ := some Frugal.peer
  keepAlive _ _ w := w
  close d w := w.close d
  lookUp _ w := (false, w)
  wait _ _ w := ([], w)

end NetReactor.Simulation
