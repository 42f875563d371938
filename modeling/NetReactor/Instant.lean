import NetReactor.Duration

/-!
# Points on the clock

An instant is a number of nanoseconds from the clock's origin. **A clock holds 63 bits of seconds**:
`add?` is the checked sum, `add` the plain one, and `inRange` says when the two agree.
-/

namespace NetReactor

/-- A point on the monotonic clock. -/
structure Instant where
  nanos : Int
deriving DecidableEq, Repr, Inhabited

namespace Instant

instance : LE Instant := ⟨fun a b => a.nanos ≤ b.nanos⟩

instance : LT Instant := ⟨fun a b => a.nanos < b.nanos⟩

instance (a b : Instant) : Decidable (a ≤ b) := inferInstanceAs (Decidable (a.nanos ≤ b.nanos))

instance (a b : Instant) : Decidable (a < b) := inferInstanceAs (Decidable (a.nanos < b.nanos))

/-- The first instant past the end of every clock. -/
def limit : Int := 0x8000000000000000 * 1000000000

/-- Whether a clock can show this instant. -/
def inRange (t : Instant) : Bool := t.nanos < limit

def add (t : Instant) (d : Duration) : Instant := ⟨t.nanos + d.nanos⟩

/-- What is said of a sum that no clock can show. -/
def overflow : String := "overflow when adding duration to instant"

/-- The sum, if a clock can show it. -/
def add? (t : Instant) (d : Duration) : Option Instant :=
  if (t.add d).inRange then some (t.add d) else none

/-- How far `t` lies after `origin`, zero if it does not. -/
def since (t origin : Instant) : Duration := ⟨(t.nanos - origin.nanos).toNat⟩

end Instant

end NetReactor
