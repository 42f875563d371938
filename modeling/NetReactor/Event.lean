import NetReactor.Bytes
import NetReactor.Handle
import NetReactor.Status

/-!
# Events

What a service tells its application: how an open went (or that a server has a new connection), that
a connection is gone, or that a packet arrived. **A connect response carries a connection exactly when
it reports success**, and a packet's status is always success.
-/

namespace NetReactor

inductive Event
  | connectResponse (channel : Nat) (status : Status) (handle : Option Handle)
  | connectionLost (channel : Nat) (status : Status) (handle : Handle)
  | packet (channel : Nat) (handle : Handle) (payload : Bytes)
deriving DecidableEq, Repr

namespace Event

inductive Kind
  | connectResponse
  | connectionLost
  | packet
deriving DecidableEq, Repr

def Kind.text : Kind → String
  | connectResponse => "ConnectResponse"
  | connectionLost => "ConnectionLost"
  | packet => "Packet"

def kind : Event → Kind
  | connectResponse .. => .connectResponse
  | connectionLost .. => .connectionLost
  | packet .. => .packet

def channel : Event → Nat
  | connectResponse ch _ _ | connectionLost ch _ _ | packet ch _ _ => ch

def status : Event → Status
  | connectResponse _ s _ | connectionLost _ s _ => s
  | packet .. => Status.ok

def handle? : Event → Option Handle
  | connectResponse _ _ h => h
  | connectionLost _ _ h | packet _ h _ => some h

/-- A packet's octets; empty for the other kinds. -/
def payload : Event → Bytes
  | packet _ _ b => b
  | _ => []

/-- The text of an event; `isOpen` says which connections are still open. -/
def text (isOpen : Handle → Bool) (e : Event) : String :=
  let channel := ("channel", toString e.channel)
  let status := ("status", toString e.status)
  let shown (h : Handle) : String := h.text (isOpen h)
  let fields := match e with
    | connectResponse _ _ h => [channel, status, ("transport", Text.optional (h.map shown))]
    | connectionLost _ _ h => [channel, status, ("transport", shown h)]
    | packet _ h b =>
      [channel, ("transport", shown h), ("payload", Text.sequence (b.map fun x => toString x.toNat))]
  Text.record e.kind.text fields

end Event

/-- An event as the loop produced it, and how its connection stood then: whether the loop still held its
transport, and whether it was open. -/
structure Emission where
  event : Event
  held : Bool
  isOpen : Bool
deriving DecidableEq, Repr

/-- Events that wait to be dispatched, oldest first. -/
abbrev EventQueue := List Event

namespace EventQueue

def push (q : EventQueue) (e : Event) : EventQueue := q ++ [e]

/-- The oldest events, at most `max`, and the rest. -/
def popBatch (q : EventQueue) (max : Nat) : List Event × EventQueue := (q.take max, q.drop max)

/-- Nothing is lost, and the order is kept. -/
theorem popBatch_append (q : EventQueue) (max : Nat) :
    (popBatch q max).1 ++ (popBatch q max).2 = q := List.take_append_drop max q

end EventQueue

end NetReactor
