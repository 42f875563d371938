import NetReactor.ChannelMask
import NetReactor.Endpoint
import NetReactor.Text

/-!
# The echo command

A server that sends every packet back to where it came from, or a client that sends a number of
packets and waits for their return. **A missing or unreadable argument takes its usual value**; only
an unknown mode is refused.
-/

namespace NetReactor.Echo

inductive Command
  | server (port : UInt16)
  | client (target : Endpoint) (packets : Nat)
deriving DecidableEq, Repr

namespace Command

def usualPort : UInt16 := 9998

def usualHost : String := "127.0.0.1"

def usualCount : Nat := 1000

/-- The port an argument names. -/
def port (arg : Option String) : UInt16 :=
  match arg.bind fun a => Text.integer? (.unsigned 16) a.toList with
  | some n => UInt16.ofNat n.toNat
  | none => usualPort

/-- The number of packets an argument names. -/
def count (arg : Option String) : Nat :=
  (arg.bind fun a => Text.unsigned64? a.toList).getD usualCount

/-- Reads the arguments; the error is the unknown mode. -/
def ofArgs : List String → Except String Command
  | [] => .ok (.server usualPort)
  | "server" :: args => .ok (.server (port args[0]?))
  | "client" :: args => .ok (.client ⟨args[0]?.getD usualHost, port args[1]?⟩ (count args[2]?))
  | mode :: _ => .error mode

/-- What is said to someone who asked for an unknown mode. -/
def usage (mode : String) : String :=
  "usage: sockio-echo server [port] | client [host] [port] [count]\nunknown mode: " ++ mode ++ "\n"

/-- The endpoint of the only channel. A server takes every address of its host. -/
def endpoint : Command → Endpoint
  | server port => ⟨"", port⟩
  | client target _ => target

def mask : Command → ChannelMask
  | server _ => .tcpServer
  | client _ _ => .tcpClient

end Command

end NetReactor.Echo
