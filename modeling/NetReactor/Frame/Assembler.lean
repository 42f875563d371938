import NetReactor.Frame.Framing

/-!
# The frame assembler

Octets arrive in a buffer of fixed room; whole frames leave it. **A frame may be longer than the
buffer**: once its size is known its octets move to the frame in progress, so the buffer only ever has
to hold one header. `scan` cuts the unread octets, `commit` takes received octets into account and
moves the remainder to the front, `feed` copies data in and commits it piece by piece.

A buffer that is full and still shows no size can never show one: that is a refusal of length 0. After
any refusal the octets received so far stay counted but are not moved, and only `reset` makes the
assembler usable again.
-/

namespace NetReactor

/-- The buffer, how much of it is filled, and the frame in progress. -/
structure Assembler where
  buffer : Array UInt8
  filled : Nat
  /-- What has arrived of the frame in progress. -/
  frame : Array UInt8
  /-- The size of the frame in progress, once it is known. -/
  expected : Option Nat
deriving Repr

/-- What a run over the unread octets leaves behind. -/
structure Scan where
  expected : Option Nat
  frame : Array UInt8
  /-- The octets not yet consumed. -/
  rest : Bytes
  /-- Finished frames as delivered, latest last. -/
  packets : Array Bytes
  failure : Option Failure

/-- A receive taken into account: the packets it finished, and why it was refused. -/
structure Receipt where
  assembler : Assembler
  packets : Array Bytes
  failure : Option Failure

namespace Assembler

def withCapacity (capacity : Nat) : Assembler :=
  ⟨Array.replicate (max capacity 1) 0, 0, #[], none⟩

def new : Assembler := withCapacity receiveRoom

instance : Inhabited Assembler := ⟨withCapacity 1⟩

def capacity (a : Assembler) : Nat := a.buffer.size

/-- The room left behind the filled part. -/
def spare (a : Assembler) : Nat := a.capacity - a.filled

/-- The unread octets. -/
def buffered (a : Assembler) : Bytes := (a.buffer.take a.filled).toList

/-- Drops everything received. -/
def reset (a : Assembler) : Assembler := { a with filled := 0, frame := #[], expected := none }

/-- Cuts frames off `rest`. `full` says that `rest` is all of a full buffer. -/
def scan (f : Framing) (full : Bool) (expected : Option Nat) (frame : Array UInt8)
    (packets : Array Bytes) (rest : Bytes) : Scan :=
  match rest with
  | [] => ⟨expected, frame, [], packets, none⟩
  | b :: tail =>
    let size : Except Failure (Option Nat) := match expected with
      | some e => .ok (some e)
      | none => f.frameSize (b :: tail)
    match size with
    | .error e => ⟨none, frame, b :: tail, packets, some e⟩
    | .ok none =>
      let failure := if full then some (Failure.invalidPacket 0 f.layout.maxFrame.toNat) else none
      ⟨none, frame, b :: tail, packets, failure⟩
    | .ok (some e) =>
      match e - frame.size with
      | 0 => ⟨some e, frame, b :: tail, packets, none⟩
      | missing + 1 =>
        let frame := (tail.take missing).foldl Array.push (frame.push b)
        if frame.size = e then
          scan f false none #[] (packets.push (f.payload frame.toList)) (tail.drop missing)
        else ⟨some e, frame, [], packets, none⟩
termination_by rest.length
decreasing_by
  simp only [List.length_drop, List.length_cons]
  omega

/-- Writes `data` into the array from index `i` on; what does not fit is lost. -/
def overlay (a : Array UInt8) (i : Nat) : Bytes → Array UInt8
  | [] => a
  | b :: rest => overlay (a.setIfInBounds i b) (i + 1) rest

/-- Writes into the spare room without taking it into account yet. -/
def write (data : Bytes) : Assembler → Assembler
  | ⟨buffer, filled, frame, expected⟩ => ⟨overlay buffer filled data, filled, frame, expected⟩

/-- Takes `n` octets of the spare room as received. -/
def commit (f : Framing) (n : Nat) : Assembler → Receipt
  | ⟨buffer, filled, frame, expected⟩ =>
    let filled := min (filled + n) buffer.size
    let s := scan f (filled = buffer.size) expected frame #[] (buffer.take filled).toList
    match s.failure with
    | some e => ⟨⟨buffer, filled, s.frame, s.expected⟩, s.packets, some e⟩
    | none =>
      let left := s.rest.length
      let buffer := if left = filled then buffer else overlay buffer 0 s.rest
      ⟨⟨buffer, left, s.frame, s.expected⟩, s.packets, none⟩

/-- Receives `data`, as much at a time as there is room for. A buffer that a refusal left full is
committed as it stands first; if it is not refused again, that makes room. -/
def feed (f : Framing) (data : Bytes) (a : Assembler) : Receipt :=
  match data with
  | [] => ⟨a, #[], none⟩
  | b :: tail =>
    match _ : a.spare with
    | 0 =>
      match a.commit f 0 with
      | ⟨a', packets, some e⟩ => ⟨a', packets, some e⟩
      | ⟨a', packets, none⟩ =>
        if a'.spare = 0 then ⟨a', packets, none⟩
        else
          let later := feed f (b :: tail) a'
          { later with packets := packets ++ later.packets }
    | room + 1 =>
      let piece := b :: tail.take room
      match (a.write piece).commit f piece.length with
      | ⟨a, packets, some e⟩ => ⟨a, packets, some e⟩
      | ⟨a, packets, none⟩ =>
        let later := feed f (tail.drop room) a
        { later with packets := packets ++ later.packets }
termination_by 2 * data.length + (1 - a.spare)
decreasing_by
  · simp only [List.length_cons]
    omega
  · simp only [List.length_drop, List.length_cons]
    omega

/-- Receives one more piece, unless one was refused before. -/
def feedNext (f : Framing) : Receipt → (piece : Bytes) → Receipt
  | ⟨a, packets, some e⟩, _ => ⟨a, packets, some e⟩
  | ⟨a, packets, none⟩, piece =>
    let later := a.feed f piece
    { later with packets := packets ++ later.packets }

/-- Receives pieces one after the other, up to the first refusal. -/
def feedAll (f : Framing) (pieces : List Bytes) (a : Assembler) : Receipt :=
  pieces.foldl (feedNext f) ⟨a, #[], none⟩

end Assembler

end NetReactor
