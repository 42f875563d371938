import NetReactor.Error
import NetReactor.Frame.LengthField

/-!
# Framing

How long the frame at the front of a buffer is: by a length field, or by a decoder of the user's own,
which takes the field's place while the maximum and the stripping still apply.
-/

namespace NetReactor

/-- Tells the length of the frame at the front of a buffer; 0 asks for more, a negative number
refuses. -/
abbrev FrameDecoder := Bytes → Int32

/-- A layout, and a decoder that overrules its length field. -/
structure Framing where
  layout : LengthField
  decoder : Option FrameDecoder

namespace Framing

instance : Inhabited Framing := ⟨⟨.standard, none⟩⟩

def announced (f : Framing) (buf : Bytes) : Int32 :=
  match f.decoder with
  | some decode => decode buf
  | none => f.layout.frameLength buf

/-- The size of the next frame, `none` while its header is incomplete. -/
def frameSize (f : Framing) (buf : Bytes) : Except Failure (Option Nat) :=
  let n := (f.announced buf).toInt
  if n = 0 then .ok none
  else if n < 0 ∨ (f.layout.maxFrame.toNat : Int) < n then
    .error (.invalidPacket n f.layout.maxFrame.toNat)
  else .ok (some n.toNat)

/-- What is delivered of a finished frame. -/
def payload (f : Framing) (frame : Bytes) : Bytes := frame.drop f.layout.strip.toNat

def text (f : Framing) : String :=
  Text.record "Framing" [("params", f.layout.text), ("custom_decoder", Text.flag f.decoder.isSome)]

end Framing

/-! ## Ready-made decoders -/

namespace FrameDecoder

/-- Always the same answer. -/
def constant (n : Int32) : FrameDecoder := fun _ => n

/-- Frames of `n` octets each. -/
def fixed (n : Int32) : FrameDecoder := fun b => if Bytes.atLeast n.toInt.toNat b then n else 0

/-- Lines, their end included. -/
def lines : FrameDecoder := fun b =>
  match b.findIdx? (· = 10) with
  | some i => Int32.ofNat (i + 1)
  | none => 0

/-- The first octet counts, plus a constant. -/
def leadingOctet (add : Int32) : FrameDecoder
  | [] => 0
  | b :: _ => Int32.ofNat b.toNat + add

/-- Whatever has arrived. -/
def everything : FrameDecoder := fun b => Int32.ofNat b.length

end FrameDecoder

end NetReactor
