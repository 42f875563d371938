import NetReactor.Sockets

/-!
# Connected pairs

Two sockets of one host, connected to each other, that carry a stream or whole messages. What one end
sends waits at the other, and every piece holds space there until all of it was read: a header, the
rest of a power of two, and whole pages. **A send is admitted while less than the limit is held**, so
the last piece may go over it, and a stream is cut into pieces of bounded size.

An end that closes with unread octets resets the other end: the other learns of it once, a stream after
what it can still read, a message socket before.
-/

namespace NetReactor.Simulation

/-- What a pair carries. -/
inductive PairKind
  | stream
  | messages
deriving DecidableEq, Repr

/-- A piece that waits to be read: its unread octets, and the space it holds. -/
structure Piece where
  data : Bytes
  space : Nat
deriving Repr

structure PairEnd where
  waiting : List Piece
  /-- No more octets will come. -/
  readEnded : Bool
  /-- No more octets can be sent. -/
  writeEnded : Bool
  /-- An error number to be reported once. -/
  error : Option Int
deriving Repr

structure Pair where
  kind : PairKind
  near : PairEnd
  far : PairEnd
deriving Repr

inductive Side
  | near
  | far
deriving DecidableEq, Repr

def Side.other : Side → Side
  | near => far
  | far => near

/-! ## Space -/

namespace Piece

def page : Nat := 4096

def pages (n : Nat) : Nat := (n + page - 1) / page * page

/-- The least power of two from 512 on that is not below `n`. -/
def block (n : Nat) : Nat := if n ≤ 512 then 512 else Nat.pow 2 (Nat.log2 (n - 1) + 1)

/-- How many octets a piece keeps beside its header; the rest goes to pages. -/
def inline : PairKind → Nat
  | .stream => 3776
  | .messages => 16064

/-- The most a piece keeps in pages. -/
def pagedLimit : Nat := 17 * page

/-- The space that a piece of `size` octets holds. -/
def spaceOf (kind : PairKind) (size : Nat) : Nat :=
  let paged := min size (pages (min (size - inline kind) pagedLimit))
  block (size - paged + 320) + 256 + pages paged

def ofData (kind : PairKind) (data : Bytes) : Piece := ⟨data, spaceOf kind data.length⟩

end Piece

namespace PairEnd

def new : PairEnd := ⟨[], false, false, none⟩

/-- The space held by what waits here. -/
def held (e : PairEnd) : Nat := e.waiting.foldl (fun n p => n + p.space) 0

def push (e : PairEnd) (p : Piece) : PairEnd := { e with waiting := e.waiting ++ [p] }

end PairEnd

namespace Pair

def new (kind : PairKind) : Pair := ⟨kind, .new, .new⟩

def side (p : Pair) : Side → PairEnd
  | .near => p.near
  | .far => p.far

def update (p : Pair) (s : Side) (f : PairEnd → PairEnd) : Pair :=
  match s with
  | .near => { p with near := f p.near }
  | .far => { p with far := f p.far }

/-- The space below which a send is admitted. -/
def sendRoom : Nat := 212992

/-- The longest message. -/
def messageLimit : Nat := sendRoom - 32

/-- The longest piece of a stream. -/
def pieceLimit : Nat := 36544

/-! ## Sending -/

/-- Whether the other end holds too much to admit a send. -/
def isFull (p : Pair) (s : Side) : Bool := sendRoom ≤ (p.side s.other).held

/-- Sends a stream piece by piece; yields how many octets were taken. -/
def sendPieces (s : Side) (data : Bytes) (p : Pair) : Nat × Pair :=
  match data with
  | [] => (0, p)
  | b :: rest =>
    if p.isFull s then (0, p)
    else
      let piece := b :: rest.take (pieceLimit - 1)
      let (n, p) := sendPieces s (rest.drop (pieceLimit - 1))
        (p.update s.other (·.push (.ofData .stream piece)))
      (piece.length + n, p)
termination_by data.length

def sendStream (s : Side) (data : Bytes) (p : Pair) : Except IoError Nat × Pair :=
  if (p.side s).writeEnded then (.error (.os OsError.brokenPipe), p)
  else if data.isEmpty then (.ok 0, p)
  else
    match sendPieces s data p with
    | (0, p) => (.error (.os OsError.wouldBlock), p)
    | (n, p) => (.ok n, p)

def sendMessage (s : Side) (data : Bytes) (p : Pair) : Except IoError Nat × Pair :=
  match (p.side s).error with
  | some e => (.error (.os e), p.update s ({ · with error := none }))
  | none =>
    if messageLimit < data.length then (.error (.os OsError.messageTooLong), p)
    else if (p.side s).writeEnded then (.error (.os OsError.brokenPipe), p)
    else if p.isFull s then (.error (.os OsError.wouldBlock), p)
    else (.ok data.length, p.update s.other (·.push (.ofData .messages data)))

def send (s : Side) (data : Bytes) (p : Pair) : Except IoError Nat × Pair :=
  match p.kind with
  | .stream => sendStream s data p
  | .messages => sendMessage s data p

/-! ## Receiving -/

/-- At most `limit` octets off the front, across pieces. -/
def takePieces (limit : Nat) : List Piece → Bytes × List Piece
  | [] => ([], [])
  | p :: rest =>
    if p.data.length ≤ limit then
      let (data, rest) := takePieces (limit - p.data.length) rest
      (p.data ++ data, rest)
    else (p.data.take limit, { p with data := p.data.drop limit } :: rest)

/-- What an end with nothing to read reports. -/
def receiveNothing (s : Side) (p : Pair) : Except IoError Bytes × Pair :=
  match (p.side s).error with
  | some e => (.error (.os e), p.update s ({ · with error := none }))
  | none => if (p.side s).readEnded then (.ok [], p) else (.error (.os OsError.wouldBlock), p)

def receive (s : Side) (limit : Nat) (p : Pair) : Except IoError Bytes × Pair :=
  match p.kind, (p.side s).waiting, (p.side s).error with
  | _, [], _ => receiveNothing s p
  | .stream, pieces, _ =>
    let (data, rest) := takePieces limit pieces
    (.ok data, p.update s ({ · with waiting := rest }))
  | .messages, _, some _ => receiveNothing s p
  | .messages, piece :: rest, none =>
    (.ok (piece.data.take limit), p.update s ({ · with waiting := rest }))

/-- Everything that waits on a stream, and whether it has ended. -/
def drainStream (s : Side) (p : Pair) : Bytes × Bool × Pair :=
  let data := (p.side s).waiting.flatMap (·.data)
  match receiveNothing s (p.update s ({ · with waiting := [] })) with
  | (.ok _, p) => (data, true, p)
  | (.error _, p) => (data, false, p)

/-- Receives up to `count` messages, until there is none or an empty one. -/
def drainMessages (s : Side) : (count : Nat) → Pair → List Bytes × Bool × Pair
  | 0, p => ([], false, p)
  | count + 1, p =>
    match p.receive s messageLimit with
    | (.ok [], p) => ([], true, p)
    | (.ok data, p) =>
      let (more, ended, p) := drainMessages s count p
      (data :: more, ended, p)
    | (.error _, p) => ([], false, p)

/-- Sends zeros until the other end is full. -/
def fill (s : Side) (p : Pair) : Pair :=
  (p.sendStream s (List.replicate (2 * sendRoom) 0)).2

/-! ## Ending -/

/-- Ends this end's sending: the other end reads to the end. -/
def endWriting (s : Side) (p : Pair) : Pair :=
  (p.update s ({ · with writeEnded := true })).update s.other ({ · with readEnded := true })

/-- Ends both directions; what waits can still be read. -/
def shutdown (s : Side) (p : Pair) : Pair :=
  let ended (e : PairEnd) : PairEnd := { e with readEnded := true, writeEnded := true }
  (p.update s ended).update s.other ended

/-- Closes one end; unread octets are lost and reset the other end. -/
def close (s : Side) (p : Pair) : Pair :=
  let unread := !(p.side s).waiting.isEmpty
  let p := (p.shutdown s).update s ({ · with waiting := [] })
  if unread then p.update s.other ({ · with error := some OsError.connectionReset }) else p

/-! ## Readiness -/

/-- Writable while the other end holds less than a quarter of the limit. -/
def isWritable (p : Pair) (s : Side) : Bool := (p.side s.other).held * 4 < sendRoom

/-- The bits a wait sees at one end. -/
def bits (p : Pair) (s : Side) : PollBits :=
  let e := p.side s
  (if e.error.isSome then PollBits.error else 0) |||
    (if e.readEnded && e.writeEnded then PollBits.hangUp else 0) |||
    (if e.readEnded || !e.waiting.isEmpty then PollBits.input else 0) |||
    (if p.isWritable s then PollBits.output else 0)

end Pair

/-- The socket under test is the near end; there is no other descriptor. -/
instance : Sockets Pair where
  receive _ limit p := p.receive .near limit
  send _ data p := p.send .near data
  shutdown _ p := p.shutdown .near

end NetReactor.Simulation
