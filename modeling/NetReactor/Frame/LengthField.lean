import NetReactor.Bytes
import NetReactor.Text

/-!
# Length fields

The layout of a frame that carries its own length: `width` octets at `offset` hold an unsigned number,
most significant octet first, and the frame is that number plus `adjustment` long, counted from its
first octet. **A length that does not cover the header, or is above the maximum, reads as -1**, an
incomplete header reads as 0, and a negative offset makes one frame of whatever has arrived.
-/

namespace NetReactor

/-- How many octets one receive can bring in, and the usual room of an assembler. -/
def receiveRoom : Nat := 65536

/-- Where a frame's length stands and how it counts. -/
structure LengthField where
  /-- The longest frame allowed. -/
  maxFrame : UInt64
  offset : Int32
  width : UInt8
  adjustment : Int32
  /-- How many octets are dropped from the front of a finished frame. -/
  strip : UInt64
deriving DecidableEq, Repr

namespace LengthField

def defaultMaxFrame : UInt64 := 10485760

def standard : LengthField := ⟨defaultMaxFrame, 0, 4, 0, 0⟩

instance : Inhabited LengthField := ⟨standard⟩

/-- Octets before the field. -/
def start (p : LengthField) : Nat := p.offset.toInt.toNat

/-- Octets up to the end of the field. -/
def headerLength (p : LengthField) : Nat := p.start + p.width.toNat

/-- One to four octets, a maximum that a signed 32-bit length can reach, and a header that fits into
one receive. -/
def isValid (p : LengthField) : Bool :=
  1 ≤ p.width && p.width ≤ 4 && 0 < p.maxFrame && p.maxFrame ≤ 2147483647 &&
    (p.offset < 0 || p.headerLength < receiveRoom)

/-- The field's unsigned value in 64 bits; higher octets are lost. -/
def fieldValue (field : Bytes) : UInt64 :=
  field.foldl (fun acc b => acc <<< 8 ||| b.toUInt64) 0

/-- The length that the front of `buf` announces. -/
def frameLength (p : LengthField) (buf : Bytes) : Int32 :=
  if p.offset < 0 then Int32.ofNat (min buf.length 2147483647)
  else if Bytes.atLeast p.headerLength buf = false then 0
  else
    let value := fieldValue ((buf.drop p.start).take p.width.toNat)
    let length := value.toInt64 + p.adjustment.toInt64
    if length < Int64.ofNat p.headerLength || p.maxFrame.toInt64 < length then -1 else length.toInt32

def text (p : LengthField) : String :=
  Text.record "LengthFieldParams" [
    ("max_frame_length", toString p.maxFrame.toNat),
    ("length_field_offset", toString p.offset.toInt),
    ("length_field_length", toString p.width.toNat),
    ("length_adjustment", toString p.adjustment.toInt),
    ("initial_bytes_to_strip", toString p.strip.toNat)]

/-- A frame in this layout: `lead` stands before the field (`offset` octets of it), `body` after it,
and the field says how long the whole is. -/
def encode (p : LengthField) (lead body : Bytes) : Bytes :=
  let total : Int := p.headerLength + body.length
  lead ++ Bytes.ofNat p.width.toNat (total - p.adjustment.toInt).toNat ++ body

end LengthField

end NetReactor
