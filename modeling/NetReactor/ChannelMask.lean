import NetReactor.Text

/-!
# Channel masks

What a channel is to be opened as: one role bit (client or server) and one protocol bit (stream or
datagram). **Valid** means exactly one of each and no other bit.
-/

namespace NetReactor

/-- Role and protocol bits. -/
structure ChannelMask where
  bits : UInt32
deriving DecidableEq, Repr, Inhabited

namespace ChannelMask

def client : ChannelMask := ⟨1⟩
def server : ChannelMask := ⟨2⟩
def tcp : ChannelMask := ⟨4⟩
def udp : ChannelMask := ⟨8⟩

def union (a b : ChannelMask) : ChannelMask := ⟨a.bits ||| b.bits⟩

def tcpClient : ChannelMask := tcp.union client
def tcpServer : ChannelMask := tcp.union server

/-- Whether every bit of `b` is set in `a`. -/
def contains (a b : ChannelMask) : Bool := a.bits &&& b.bits = b.bits

def isClient (m : ChannelMask) : Bool := m.contains client
def isServer (m : ChannelMask) : Bool := m.contains server
def isTcp (m : ChannelMask) : Bool := m.contains tcp
def isUdp (m : ChannelMask) : Bool := m.contains udp

def isValid (m : ChannelMask) : Bool :=
  m.bits &&& ~~~(15 : UInt32) = 0 && m.isClient != m.isServer && m.isTcp != m.isUdp

/-- The name of the one bit set, `?` when both or neither is. -/
def oneOf (a b : Bool) (nameA nameB : String) : String :=
  match a, b with
  | true, false => nameA
  | false, true => nameB
  | _, _ => "?"

def text (m : ChannelMask) : String :=
  "ChannelMask(" ++ oneOf m.isTcp m.isUdp "tcp" "udp" ++ "-" ++
    oneOf m.isClient m.isServer "client" "server" ++ ", 0x" ++ Text.hex m.bits.toNat ++ ")"

end ChannelMask

end NetReactor
