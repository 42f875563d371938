import NetReactor.Bytes
import NetReactor.Error
import NetReactor.Readiness

/-!
# Sockets

What reading and writing ask of a connected socket. A call answers at once and may change the world
`σ` it is made in; nothing is assumed of the answers here, so **what is proved over every instance
holds whatever the system does**.
-/

namespace NetReactor

class Sockets (σ : Type) where
  /-- Receives at most so many octets, or one message cut to that length. -/
  receive : Descriptor → (limit : Nat) → σ → Except IoError Bytes × σ
  /-- Sends octets and tells how many were taken. -/
  send : Descriptor → Bytes → σ → Except IoError Nat × σ
  /-- Ends both directions. -/
  shutdown : Descriptor → σ → σ

end NetReactor
