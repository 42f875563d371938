import NetReactor.Frame.Assembler
import NetReactor.Handle
import NetReactor.Sockets

/-!
# Transports

The loop's half of a connection: the socket, the octets received so far, and what the socket is
watched for. `read` takes what has arrived, **at most sixteen receives in one turn**, so that one busy
peer does not starve the others. A stream goes through the assembler; of a datagram socket every
message is a packet of its own.
-/

namespace NetReactor

structure Transport where
  handle : Handle
  descriptor : Descriptor
  assembler : Assembler
  interest : Interest
deriving Repr

namespace Transport

/-- Receives in one turn. -/
def readsPerTurn : Nat := 16

/-- What a turn of reading brought: packets, and why it was the last, if it was. -/
structure Intake (σ : Type) where
  assembler : Assembler
  packets : Array Bytes
  failure : Option Failure
  world : σ

variable {σ : Type} [Sockets σ]

/-- Reads a stream, at most `turns` times. -/
def readStream (f : Framing) (d : Descriptor) : (turns : Nat) → Assembler → σ → Intake σ
  | 0, a, w => ⟨a, #[], none, w⟩
  | turns + 1, a, w =>
    match Sockets.receive d a.spare w with
    | (.ok [], w) => ⟨a, #[], some (.lost Status.endOfStream), w⟩
    | (.ok data, w) =>
      match (a.write data).commit f data.length with
      | ⟨a, packets, some e⟩ => ⟨a, packets, some e, w⟩
      | ⟨a, packets, none⟩ =>
        let more := readStream f d turns a w
        { more with packets := packets ++ more.packets }
    | (.error e, w) => ⟨a, #[], e.fatal?, w⟩

/-- Reads messages, at most `turns` of them. -/
def readMessages (d : Descriptor) : (turns : Nat) → σ → List Bytes × Option Failure × σ
  | 0, w => ([], none, w)
  | turns + 1, w =>
    match Sockets.receive d receiveRoom w with
    | (.ok data, w) =>
      let (packets, failure, w) := readMessages d turns w
      (data :: packets, failure, w)
    | (.error e, w) => ([], e.fatal?, w)

/-- Reads what has arrived. -/
def read (t : Transport) (f : Framing) (w : σ) : Intake σ :=
  if t.handle.mask.isUdp then
    let (packets, failure, w) := readMessages t.descriptor readsPerTurn w
    ⟨t.assembler, packets.toArray, failure, w⟩
  else readStream f t.descriptor readsPerTurn t.assembler w

end Transport

end NetReactor
