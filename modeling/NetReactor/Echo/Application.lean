import NetReactor.Echo.Command
import NetReactor.Host

/-!
# What the echo command does on an event

**The server writes every packet's octets back to the connection they came on**, and asks for nothing
else. The client writes all its packets as soon as it is connected; it has ended when as many came
back, and also when the connect failed or the connection was lost.

`Running c σ` is a host `σ` whose application carries the command `c` out.
-/

namespace NetReactor.Echo

/-- The packet a client sends as its `i`-th. -/
def ping (i : Nat) : Bytes := LengthField.standard.encode [] (Bytes.ofText ("ping " ++ toString i))

namespace Command

/-- What is asked of the service on an event. -/
def onEvent : Command → Event → List Request
  | server _, .packet _ h payload => [.write h payload]
  | client _ packets, .connectResponse _ 0 (some h) =>
    (List.range packets).map fun i => .write h (ping i)
  | _, _ => []

def isPacket : Event → Bool
  | .packet .. => true
  | _ => false

/-- Whether an event ends a client that sends so many packets, however many came back. -/
def isEnd (packets : Nat) : Event → Bool
  | .connectResponse _ 0 (some _) => packets = 0
  | .connectResponse .. | .connectionLost .. => true
  | .packet .. => false

/-- Whether the command has ended once these events were dispatched. -/
def hasEnded : Command → List Event → Bool
  | server _, _ => false
  | client _ packets, events =>
    events.any (isEnd packets) || 0 < packets && packets ≤ events.countP isPacket

end Command

/-- A host whose application carries the command out. -/
def Running (_ : Command) (σ : Type) : Type := σ

instance {c : Command} {σ : Type} [h : Host σ] : Host (Running c σ) :=
  { (h : Host (Running c σ)) with
    onEvent := fun _ e w => .ofRequests (c.onEvent e) w
    onTimer := fun _ _ w => .done w }

end NetReactor.Echo
