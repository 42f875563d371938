import NetReactor.Duration
import NetReactor.Text

/-!
# Readiness

What a descriptor is watched for, and what a wait reports of it, both as the bits of the readiness
call. **A hang-up reads as readable**, so that the next receive learns why; an error, or a descriptor
that is not open, is told apart from both.
-/

namespace NetReactor

/-- The system's number of an open socket; a negative one names none. -/
abbrev Descriptor := Int

/-- What a descriptor is watched for. -/
structure Interest where
  readable : Bool
  writable : Bool
deriving DecidableEq, Repr, Inhabited

/-- The bits of the readiness call. -/
abbrev PollBits := UInt16

namespace PollBits

def input : PollBits := 1
def output : PollBits := 4
def error : PollBits := 8
def hangUp : PollBits := 16
def invalid : PollBits := 32

/-- Whether the two sets share a bit. -/
def meets (a b : PollBits) : Bool := a &&& b != 0

end PollBits

namespace Interest

def none : Interest := ⟨false, false⟩
def read : Interest := ⟨true, false⟩
def write : Interest := ⟨false, true⟩

/-- The bits to ask for. -/
def bits (i : Interest) : PollBits :=
  (if i.readable then PollBits.input else 0) ||| (if i.writable then PollBits.output else 0)

def text (i : Interest) : String :=
  Text.record "Interest" [("readable", Text.flag i.readable), ("writable", Text.flag i.writable)]

end Interest

/-- What a wait reports of one watched descriptor, under the token it was registered with. -/
structure Readiness (τ : Type) where
  token : τ
  readable : Bool
  writable : Bool
  error : Bool
deriving DecidableEq, Repr

namespace Readiness

variable {τ : Type}

def ofBits (token : τ) (bits : PollBits) : Readiness τ where
  token := token
  readable := bits.meets (.input ||| .hangUp)
  writable := bits.meets .output
  error := bits.meets (.error ||| .invalid)

def text [ToString τ] (r : Readiness τ) : String :=
  Text.record "Readiness" [("token", toString r.token), ("readable", Text.flag r.readable),
    ("writable", Text.flag r.writable), ("error", Text.flag r.error)]

end Readiness

namespace Duration

/-- The longest wait of the readiness call in milliseconds. -/
def longestWait : Nat := 0x7fffffff

/-- The whole milliseconds a wait of this length is asked to last: at least one unless it is zero. -/
def waitMillis (d : Duration) : Nat :=
  let ms := if d.millis = 0 && !d.isZero then 1 else d.millis
  Nat.min ms longestWait

end Duration

end NetReactor
