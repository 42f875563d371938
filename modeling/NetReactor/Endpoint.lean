import NetReactor.Address.Parser
import NetReactor.Text

/-!
# Endpoints

Where a channel connects or listens: a host, by name or by address, and a port. An address may stand
in brackets; **an empty host binds every interface** and is no address to connect to.
-/

namespace NetReactor

/-- A host, by name or address, and a port. -/
structure Endpoint where
  host : String
  port : UInt16
deriving DecidableEq, Repr, Inhabited

namespace Endpoint

/-- The text inside one pair of brackets, or the text itself. -/
def unbracketed (cs : List Char) : List Char :=
  match cs with
  | '[' :: rest => if rest.getLast? = some ']' then rest.dropLast else cs
  | _ => cs

/-- The host as an address, if it is one. -/
def numeric? (e : Endpoint) : Option Address :=
  Address.ofText? (String.ofList (unbracketed e.host.toList))

/-- Where a server binds without a lookup. -/
def bindAddress? (e : Endpoint) : Option SocketAddress :=
  if e.host.isEmpty then some (.ofHost .anyV4 e.port) else e.numeric?.map fun a => .ofHost a e.port

def text (e : Endpoint) : String :=
  match e.numeric? with
  | some (.v6 groups) => (SocketAddress.ofHost (.v6 groups) e.port).text
  | _ => e.host ++ ":" ++ toString e.port.toNat

def debugText (e : Endpoint) : String :=
  Text.record "Endpoint" [("host", Text.quoted e.host), ("port", toString e.port.toNat)]

end Endpoint

end NetReactor
