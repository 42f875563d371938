import NetReactor.Host

/-!
# A host whose first timer deals with others

Callback 0 of the timers makes one request, which is given beforehand; **all others do nothing**. It is always
five milliseconds past, no descriptor is handed out, and nothing is received or sent.
-/

namespace NetReactor.Simulation

structure Meddler where
  /-- What callback 0 asks for. -/
  deed : Request

instance : Host Meddler where
  receive _ _ w := (.error (.os OsError.wouldBlock), w)
  send _ _ w := (.error (.os OsError.wouldBlock), w)
  shutdown _ w := w
  onEvent _ _ w := .done w
  onTimer timer _ w := if timer = 0 then .ofRequests [w.deed] w else .done w
  now w := (⟨5000000⟩, w)
  connect _ _ _ w := (.error (.os OsError.addressInUse), w)
  connectError _ w := (none, w)
  bindServer _ _ w := (.error (.os OsError.addressInUse), w)
  accept _ w := (.ok none, w)
  receiveFrom _ _ w := (.error (.os OsError.wouldBlock), w)
  bindPeer _ _ w := (.error (.os OsError.addressInUse), w)
  localAddress _ _ := none
  peerAddress _ _ := none
  keepAlive _ _ w := w
  close _ w := w
  lookUp _ w := (false, w)
  wait _ _ w := ([], w)

end NetReactor.Simulation
