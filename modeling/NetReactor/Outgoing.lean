import NetReactor.Instant
import NetReactor.Sockets

/-!
# The send queue

Messages wait in the order they were written, each perhaps until a point in time. `flush` sends from
the front until the queue is empty or the socket takes no more: **a message past its time is dropped,
even one that was sent in part**, and a short send keeps the message in front with what it has left.
-/

namespace NetReactor

/-- A message, how many of its octets were sent, and when it expires. -/
structure Outgoing where
  data : Bytes
  sent : Nat
  expires : Option Instant
deriving DecidableEq, Repr

namespace Outgoing

def new (data : Bytes) (expires : Option Instant) : Outgoing := ⟨data, 0, expires⟩

def isExpired (m : Outgoing) (now : Instant) : Bool :=
  match m.expires with
  | some time => time ≤ now
  | none => false

/-- The octets still to be sent. -/
def unsent (m : Outgoing) : Bytes := m.data.drop m.sent

end Outgoing

/-- A queue after sending, and why sending failed, if it did. -/
structure Flush (σ : Type) where
  queue : List Outgoing
  failure : Option Failure
  world : σ

/-- Sends what the socket takes at `now`. -/
def flush {σ : Type} [Sockets σ] (d : Descriptor) (now : Instant) : List Outgoing → σ → Flush σ
  | [], w => ⟨[], none, w⟩
  | m :: rest, w =>
    if m.isExpired now then flush d now rest w
    else
      match Sockets.send d m.unsent w with
      | (.ok n, w) =>
        if m.sent + n < m.data.length then ⟨{ m with sent := m.sent + n } :: rest, none, w⟩
        else flush d now rest w
      | (.error e, w) => ⟨m :: rest, e.fatal?, w⟩

end NetReactor
