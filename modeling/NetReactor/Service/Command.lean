import NetReactor.Address
import NetReactor.ChannelMask
import NetReactor.Error
import NetReactor.Instant
import NetReactor.Options
import NetReactor.TransportId

/-!
# What other threads ask of the loop

Commands reach the loop through a queue and are carried out in order. A lookup runs on a thread of its
own and comes back as a command too, **under the epoch it was begun with**. Timers carry a task, which
says what is to be done when they fire.
-/

namespace NetReactor

/-- A name to be looked up for a channel. -/
structure Lookup where
  channel : Nat
  epoch : Nat
  host : String
  port : UInt16
  resolver : Option ResolverId
deriving DecidableEq, Repr

/-- The answer to a lookup, and when it came. -/
structure Resolution where
  channel : Nat
  epoch : Nat
  answer : Except IoError (List SocketAddress)
  time : Instant

inductive Command
  | openChannel (channel : Nat) (mask : ChannelMask)
  | closeChannel (channel : Nat)
  | closeTransport (id : TransportId)
  | reopen (channel : Nat) (id : TransportId)
  | resolved (resolution : Resolution)
  | setRemote (channel : Nat) (host : Option String) (port : Option UInt16)
  | setLocalPort (channel : Nat) (port : UInt16)

inductive Task
  | connectTimeout (channel : Nat)
  | reconnect (channel : Nat)
  /-- One of the application's timers, by the number it is known under. -/
  | user (timer : Nat)
deriving DecidableEq, Repr

end NetReactor
