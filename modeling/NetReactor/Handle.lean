import NetReactor.Address
import NetReactor.ChannelMask
import NetReactor.TransportId

/-!
# Connection handles

What the application knows a connection by. The serial number tells all connections of a service
apart; the transport identifier names the slot the loop keeps the connection in, and **handles compare
by the identifier alone**.
-/

namespace NetReactor

/-- A connection's place among all of a service's, its slot, channel, mask and two addresses. -/
structure Handle where
  serial : Nat
  id : TransportId
  channel : Nat
  mask : ChannelMask
  localAddress : Option SocketAddress
  peerAddress : Option SocketAddress
deriving DecidableEq, Repr, Inhabited

namespace Handle

/-- Whether the application takes the two for the same connection. -/
def equal (a b : Handle) : Bool := a.id = b.id

def text (h : Handle) (isOpen : Bool) : String :=
  Text.record "TransportHandle" [("id", h.id.debugText), ("channel", toString h.channel),
    ("peer", Text.optional (h.peerAddress.map SocketAddress.text)), ("open", Text.flag isOpen)]

end Handle

end NetReactor
