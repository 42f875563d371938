import NetReactor.Handle
import NetReactor.Outgoing

/-!
# Connections

The application's half of a connection: its handle, whether it is open, the status it was closed with,
and the messages waiting to be sent. It outlives the socket: **once closed it stays closed**, and what
was still waiting is dropped.
-/

namespace NetReactor

structure Connection where
  handle : Handle
  isOpen : Bool
  /-- What the connection was closed with; success while it is open. -/
  status : Status
  outgoing : List Outgoing
deriving Repr

namespace Connection

def ofHandle (h : Handle) : Connection := ⟨h, true, Status.ok, []⟩

def enqueue (c : Connection) (m : Outgoing) : Connection := { c with outgoing := c.outgoing ++ [m] }

def hasPending (c : Connection) : Bool := !c.outgoing.isEmpty

/-- Closes with `status`; the queue is left alone. -/
def markClosed (c : Connection) (status : Status) : Connection :=
  { c with isOpen := false, status := status }

/-- Closes with `status` and drops what waits. -/
def close (c : Connection) (status : Status) : Connection :=
  { c with isOpen := false, status := status, outgoing := [] }

/-- What to watch for: always input, and output while messages wait. -/
def wanted (c : Connection) : Interest := ⟨true, c.hasPending⟩

def text (c : Connection) : String := c.handle.text c.isOpen

end Connection

end NetReactor
